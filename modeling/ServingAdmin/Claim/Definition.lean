import ServingAdmin.Cluster.Encoding

/-!
# The definition of claims

The object that makes claims known to a cluster, in its JSON form.
-/

namespace ServingAdmin
namespace Claim

open Cluster
open Json.Writer

/-- The names under which claims are known. -/
def names : List Char :=
  object [
    ("kind", string Cluster.Claim.kind),
    ("plural", string Cluster.Claim.plural),
    ("shortNames", array []),
    ("singular", string "clusterdomainclaim")]

/-- The one version of claims. -/
def versions : List Char :=
  array [object [
    ("name", string Cluster.Claim.version), ("served", boolean true), ("storage", boolean true)]]

/-- The definition of claims. -/
def definition : List Char :=
  object [
    ("apiVersion", string "apiextensions.k8s.io/v1beta1"),
    ("kind", string "CustomResourceDefinition"),
    ("metadata", object [
      ("name", string (Cluster.Claim.plural ++ "." ++ Cluster.Claim.group))]),
    ("spec", object [
      ("additionalPrinterColumns", array []),
      ("group", string Cluster.Claim.group),
      ("names", names),
      ("scope", string "Cluster"),
      ("subresources", object []),
      ("versions", versions)])]

end Claim
end ServingAdmin
