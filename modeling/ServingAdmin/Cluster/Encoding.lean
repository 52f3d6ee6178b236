import ServingAdmin.Cluster.Metadata.Encoding
import ServingAdmin.Cluster.Object
import ServingAdmin.Text.Base64

/-!
# Encoding of objects

The JSON form in which objects are sent to the cluster.  Parts that are missing are left
out.
-/

namespace ServingAdmin
namespace Cluster

open Json

/-- An object with octets as values. -/
def writeOctets (m : KeyMap (List UInt8)) : List Char :=
  Writer.object
    (m.entries.map fun e => (e.1, Writer.string (String.ofList (Text.Base64.encode e.2))))

/-- The JSON form of a config map. -/
def ConfigMap.write (c : ConfigMap) : List Char :=
  Writer.object (present [
    some ("apiVersion", Writer.string "v1"),
    member? "binaryData" writeOctets c.binaryData,
    member? "data" writeTexts c.data,
    some ("kind", Writer.string "ConfigMap"),
    member? "metadata" Metadata.write c.metadata])

/-- The group of claims. -/
def Claim.group : String := "networking.internal.knative.dev"

/-- The version of claims. -/
def Claim.version : String := "v1alpha1"

/-- The API version of claims. -/
def Claim.apiVersion : String := Claim.group ++ "/" ++ Claim.version

/-- The plural that stands for claims in paths. -/
def Claim.plural : String := "clusterdomainclaims"

/-- The kind of claims. -/
def Claim.kind : String := "ClusterDomainClaim"

/-- The JSON form of a claim. -/
def Claim.write (c : Claim) : List Char :=
  Writer.object [
    ("apiVersion", Writer.string Claim.apiVersion),
    ("kind", Writer.string Claim.kind),
    ("metadata", Writer.object [("name", Writer.string c.name)]),
    ("spec", Writer.object [("namespace", Writer.string c.ns)])]

end Cluster
end ServingAdmin
