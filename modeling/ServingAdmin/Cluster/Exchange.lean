import ServingAdmin.Script

/-!
# Exchanges

The exchanges of commands with the cluster together with what is reported of them.
Namespaces and config maps that are replaced have to have a name; a script that meets one
without ends there.
-/

namespace ServingAdmin
namespace Cluster
namespace Exchange

open Script

/-- Fetches a config map of Knative Serving. -/
def fetch (name : String) : Script ConfigMap := report (.fetching name) (call (Call.fetch name))

/-- Replaces a config map of Knative Serving under its own name. -/
def replace (c : ConfigMap) : Script ConfigMap := do
  let name ← ofOption c.name?
  report (.replacing name) (call (Call.replace name c))

/-- The config map that shows how Knative Serving was installed. -/
def domainMap : String := "config-domain"

/-- Finds out how Knative Serving was installed. -/
def installation : Script Installation := do
  let c ← fetch domainMap
  reportAll ((Installation.operatorOf c).toList.map .operatorFound)
  report (.installationFound (.ofConfigMap c)) (done (.ofConfigMap c))

/-- Lists the names of the namespaces. -/
def namespaces : Script (List String) := do
  ofOption ((← call Call.namespaces).mapM id)

/-- Lists the registry secrets of a namespace. -/
def secrets (ns : String) : Script (List Secret) :=
  report (.listingSecrets ns) (call (Call.secrets ns Registry.labelSelector))

/-- Lists the registry secrets of several namespaces. -/
def secretsOf : List String → Script (List Secret)
  | [] => done []
  | ns :: rest => do
      let first ← secrets ns
      let others ← secretsOf rest
      done (first ++ others)

/-- Lists the claims. -/
def claims : Script (List ListedClaim) := call Call.claims

/-- Makes a claim. -/
def create (claim : Claim) : Script Unit :=
  report (.creatingClaim claim) (call (Call.create claim))

/-- Deletes a claim. -/
def delete (name : String) : Script Unit := report (.deletingClaim name) (call (Call.delete name))

end Exchange
end Cluster
end ServingAdmin
