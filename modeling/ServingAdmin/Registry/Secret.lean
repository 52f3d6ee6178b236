import ServingAdmin.Cluster.Object
import ServingAdmin.Problem
import ServingAdmin.Registry.DockerConfig

/-!
# Registry secrets

Image pull secrets that this tool manages carry two labels: one that says so, and one
that names the service account they belong to.  Their credentials are a docker
configuration under a fixed key.  Metadata, labels and data that are missing count as
empty.
-/

namespace ServingAdmin
namespace Registry

/-- The label that says who manages an object. -/
def managedByLabel : String := "app.kubernetes.io/managed-by"

/-- What the label says of the secrets that are managed here. -/
def managerName : String := "kn-admin-registry"

/-- The label that names the service account. -/
def accountLabel : String := "kn-admin-registry-serviceaccount"

/-- The key of the docker configuration. -/
def configKey : String := ".dockerconfigjson"

/-- The selector of the secrets that are managed here. -/
def labelSelector : String := managedByLabel ++ "=" ++ managerName

/-- A secret reduced to what is listed of it. -/
structure Secret where
  ns : String
  name : String
  account : String
  config : DockerConfig
  deriving DecidableEq

namespace Secret

/-- The octets of the docker configuration of an object. -/
def payload (s : Cluster.Secret) : List UInt8 := ((s.data.bind (·.get? configKey)).getD [])

/-- Reduces an object to what is listed of it. -/
def ofObject (s : Cluster.Secret) : Except Failure Secret :=
  let metadata := s.metadata.getD {}
  let ns := metadata.ns.getD ""
  let name := metadata.name.getD ""
  let account := (metadata.labels.bind (·.get? accountLabel)).getD ""
  match DockerConfig.decode (payload s) with
  | .ok config => .ok ⟨ns, name, account, config⟩
  | .error fault => .error (.because (.undecodableSecret ns name) (.of (.badJson fault)))

/-- Whether one secret is listed no later than another. -/
def isBefore (a b : Secret) : Bool := a.ns < b.ns || (a.ns = b.ns && a.name ≤ b.name)

end Secret

end Registry
end ServingAdmin
