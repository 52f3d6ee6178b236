import ServingAdmin.Cluster.Metadata.Basic

/-!
# Objects of the cluster

The objects that commands read and write, as far as they matter.  Most parts of an
object may be missing.
-/

namespace ServingAdmin
namespace Cluster

/-- The namespace of Knative Serving. -/
def servingNamespace : String := "knative-serving"

/-- A map of settings. -/
structure ConfigMap where
  metadata : Option Metadata
  data : Option (KeyMap String)
  binaryData : Option (KeyMap (List UInt8))
  deriving DecidableEq

/-- A map of octets. -/
structure Secret where
  metadata : Option Metadata
  data : Option (KeyMap (List UInt8))
  deriving DecidableEq

/-- The claim of a domain name for a namespace. -/
structure Claim where
  name : String
  ns : String
  deriving DecidableEq

/-- A claim as it is listed, which may come without a name. -/
structure ListedClaim where
  name : Option String
  ns : String
  deriving DecidableEq

/-- The name of a config map, if it has one. -/
def ConfigMap.name? (c : ConfigMap) : Option String := c.metadata.bind Metadata.name

/-- The data of a config map; missing data are empty. -/
def ConfigMap.settings (c : ConfigMap) : KeyMap String := c.data.getD .empty

/-- The owners of a config map. -/
def ConfigMap.ownerList (c : ConfigMap) : List Owner :=
  ((c.metadata.bind Metadata.owners).getD [])

end Cluster
end ServingAdmin
