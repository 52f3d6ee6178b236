import ServingAdmin.Autoscaling.Rejection
import ServingAdmin.Binary64.Literal
import ServingAdmin.Claim.Rejection
import ServingAdmin.Cluster.Fault
import ServingAdmin.Duration.Reader
import ServingAdmin.Json.Fault

/-!
# Problems

Everything that can go wrong in a command, as a value with a message.  A failure is a
problem together with the problems that caused it, the nearest cause first.
-/

namespace ServingAdmin

/-- What went wrong. -/
inductive Problem
  | badDuration (fault : Duration.Fault) (raw : String)
  | badDecimal (fault : Binary64.LiteralFault)
  | badJson (fault : Json.Fault)
  | unknownField (field : String)
  | rejectedField (field : String) (reason : Autoscaling.Rejection)
  | conflictingFlags (first second : String)
  | missingFlags (command : String)
  | rejectedClaim (reason : ClaimRejection)
  | operatorManaged
  | unknownInstallation
  | unreadableSetting (key value : String)
  | unreadableSettings
  | accountWithoutNamespace
  | namespaceNotFound (name : String)
  | undecodableSecret (ns name : String)
  | configMapsNotFetched
  | configMapNotFetched (name ns : String)
  | configMapNotUpdated (name ns : String)
  | namespacesNotSearched
  | failedExchange (fault : Cluster.Fault)
  | missingKubeConfig (path : String)
  | kubeConfigPathList (path : String)
  | outputFull
  deriving DecidableEq

namespace Problem

/-- The message of a problem. -/
def message : Problem → String
  | badDuration .malformed raw => "invalid duration " ++ raw
  | badDuration .missingUnit raw => "missing unit in duration " ++ raw
  | badDuration (.unknownUnit unit) raw => "unknown unit " ++ unit ++ " in duration " ++ raw
  | badDecimal fault => fault.message
  | badJson fault => fault.message
  | unknownField field => "unknown autoscaling field " ++ field
  | rejectedField field reason => reason.message field
  | conflictingFlags first second =>
      "please specify either --" ++ first ++ " or --" ++ second
  | missingFlags command => "'" ++ command ++ "' requires flag(s)"
  | rejectedClaim reason => reason.message
  | operatorManaged => "Knative managed by operator is not supported yet"
  | unknownInstallation => "Cannot detect current installation method"
  | unreadableSetting key value => "failed to parse " ++ key ++ ": " ++ value
  | unreadableSettings => "failed to get autoscaling config"
  | accountWithoutNamespace => "cannot specify service account with empty namespace"
  | namespaceNotFound name => "namespace " ++ name ++ " not found"
  | undecodableSecret ns name => "failed to decode registry secret " ++ ns ++ "/" ++ name
  | configMapsNotFetched => "failed to get ConfigMaps"
  | configMapNotFetched name ns => "failed to get ConfigMap " ++ name ++ " in namespace " ++ ns
  | configMapNotUpdated name ns =>
      "failed to update ConfigMap " ++ name ++ " in namespace " ++ ns
  | namespacesNotSearched => "failed to search specified namespaces"
  | failedExchange fault => "kube api interaction failed: " ++ fault.message
  | missingKubeConfig path => "Config file '" ++ path ++ "' can not be found"
  | kubeConfigPathList path =>
      "Can not find config file. '" ++ path ++ "' looks like a path. " ++
        "Please use the env var KUBECONFIG if you want to check for multiple configuration files"
  | outputFull => "failed to write whole buffer"

/-- A description of the kind of problem, without the values involved.  Problems that only tell
what was being done have their message as description. -/
def description : Problem → String
  | badDuration .malformed _ => "invalid duration"
  | badDuration .missingUnit _ => "missing unit in duration"
  | badDuration (.unknownUnit _) _ => "unknown unit in duration"
  | unknownField _ => "unknown autoscaling field"
  | rejectedField _ _ => "configuration value rejected"
  | conflictingFlags _ _ => "mutually exclusive flags"
  | missingFlags _ => "no flags given"
  | rejectedClaim _ => "cluster domain claim rejected"
  | operatorManaged => "knative is managed by the operator"
  | unknownInstallation => "installation method could not be detected"
  | failedExchange _ => "kube api interaction failed"
  | missingKubeConfig _ => "kubeconfig file not found"
  | kubeConfigPathList _ => "kubeconfig given as a path list"
  | outputFull => ""
  | problem => problem.message

end Problem

/-- A problem and what caused it, the nearest cause first. -/
structure Failure where
  problem : Problem
  causes : List Problem
  deriving DecidableEq

namespace Failure

/-- A problem without a cause. -/
def of (problem : Problem) : Failure := ⟨problem, []⟩

/-- A problem that is caused by a failure. -/
def because (problem : Problem) (cause : Failure) : Failure :=
  ⟨problem, cause.problem :: cause.causes⟩

/-- Reports a failure as the cause of a problem. -/
def context {α : Type} (problem : Problem) (r : Except Failure α) : Except Failure α :=
  r.mapError (because problem)

end Failure

end ServingAdmin
