import ServingAdmin.Cluster.Route
import ServingAdmin.Cluster.Target

/-!
# Requests

A request says what is to be done and with what.  New and changed objects are sent along
in their JSON form.
-/

namespace ServingAdmin
namespace Cluster

/-- What is to be done. -/
inductive Action
  | get
  | create (claim : Claim)
  | replace (configMap : ConfigMap)
  | delete
  deriving DecidableEq

namespace Action

/-- The method of an action. -/
def method : Action → String
  | get => "GET"
  | create _ => "POST"
  | replace _ => "PUT"
  | delete => "DELETE"

/-- The JSON form of the object that is sent along. -/
def body : Action → Option (List Char)
  | get | delete => none
  | create claim => some claim.write
  | replace configMap => some configMap.write

end Action

/-- What is to be done and with what. -/
structure Request where
  action : Action
  target : Target
  deriving DecidableEq

end Cluster
end ServingAdmin
