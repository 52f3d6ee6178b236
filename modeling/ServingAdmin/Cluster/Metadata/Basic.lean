import ServingAdmin.Calendar.Timestamp
import ServingAdmin.Json.Value.Basic

/-!
# Metadata

What every object of the cluster carries about itself.  The metadata of a config map are
carried along when it is replaced, so all of their known members are kept, and those
whose shape is up to whoever set them are kept as JSON values.
-/

namespace ServingAdmin
namespace Cluster

/-- An object that another one belongs to. -/
structure Owner where
  apiVersion : String
  kind : String
  name : String
  uid : String
  controller : Option Bool
  blockOwnerDeletion : Option Bool
  deriving DecidableEq

/-- Which fields of an object a manager has set, and when. -/
structure ManagedFields where
  apiVersion : Option String := none
  fields : Option Json.Value := none
  manager : Option String := none
  operation : Option String := none
  time : Option Calendar.Timestamp := none
  deriving DecidableEq

/-- What a list carries about itself. -/
structure ListMetadata where
  continuation : Option String := none
  resourceVersion : Option String := none
  selfLink : Option String := none
  deriving DecidableEq

/-- One cause of a verdict. -/
structure Cause where
  field : Option String := none
  message : Option String := none
  reason : Option String := none
  deriving DecidableEq

/-- What a verdict is about. -/
structure VerdictDetails where
  causes : Option (List Cause) := none
  group : Option String := none
  kind : Option String := none
  name : Option String := none
  retryAfterSeconds : Option Int := none
  uid : Option String := none
  deriving DecidableEq

/-- How the preparation of an object ended. -/
structure Verdict where
  code : Option Int := none
  details : Option VerdictDetails := none
  message : Option String := none
  metadata : Option ListMetadata := none
  reason : Option String := none
  status : Option String := none
  deriving DecidableEq

/-- The preparation of an object that is not visible yet: the names of those that have to act on
it, and how it ended if it did. -/
structure Initializers where
  pending : List String
  result : Option Verdict
  deriving DecidableEq

/-- What every object carries about itself. -/
structure Metadata where
  name : Option String := none
  ns : Option String := none
  labels : Option (KeyMap String) := none
  annotations : Option (KeyMap String) := none
  resourceVersion : Option String := none
  owners : Option (List Owner) := none
  uid : Option String := none
  clusterName : Option String := none
  generateName : Option String := none
  selfLink : Option String := none
  creationTimestamp : Option Calendar.Timestamp := none
  deletionTimestamp : Option Calendar.Timestamp := none
  deletionGracePeriodSeconds : Option Int := none
  generation : Option Int := none
  finalizers : Option (List String) := none
  initializers : Option Initializers := none
  managedFields : Option (List ManagedFields) := none
  deriving DecidableEq

end Cluster
end ServingAdmin
