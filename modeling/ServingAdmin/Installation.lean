import ServingAdmin.Cluster.Object
import ServingAdmin.Problem

/-!
# How Knative Serving was installed

An installation that an operator looks after has a config map for domains that belongs
to an object of the operator.  Only other installations can be edited.
-/

namespace ServingAdmin

/-- How Knative Serving came into the cluster. -/
inductive Installation
  | unknown
  | standalone
  | operator
  deriving DecidableEq

namespace Installation

/-- Whether an owner is an object of the operator. -/
def isOperator (o : Cluster.Owner) : Bool :=
  "operator.knative.dev".toList.isPrefixOf o.apiVersion.toList && o.kind = "KnativeServing"

/-- The first owner that is an object of the operator. -/
def operatorOf (c : Cluster.ConfigMap) : Option Cluster.Owner := c.ownerList.find? isOperator

/-- The installation that the config map for domains shows. -/
def ofConfigMap (c : Cluster.ConfigMap) : Installation :=
  if (operatorOf c).isSome then operator else standalone

/-- Refuses installations that cannot be edited. -/
def ensureEditable : Installation → Except Failure Unit
  | standalone => .ok ()
  | operator => .error (.of .operatorManaged)
  | unknown => .error (.of .unknownInstallation)

/-- The name of an installation in log lines. -/
def label : Installation → String
  | unknown => "Unknown"
  | standalone => "Standalone"
  | operator => "Operator"

end Installation

end ServingAdmin
