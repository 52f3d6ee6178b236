import ServingAdmin.Installation

/-!
# Events

What commands report while they run.  Every event has a severity and a source, and is
shown on one line, the source in front.  Errors, warnings and information are always
shown; each step of verbosity adds one severity.
-/

namespace ServingAdmin

/-- How severe an event is. -/
inductive Severity
  | error
  | warning
  | information
  | detail
  | trace
  deriving DecidableEq

/-- The number of severities above a severity. -/
def Severity.rank : Severity → Nat
  | error => 0
  | warning => 1
  | information => 2
  | detail => 3
  | trace => 4

/-- Something that happened. -/
inductive Event
  | usingKubeConfig (path : String)
  | examining (field raw : String)
  | fetching (configMap : String)
  | operatorFound (owner : Cluster.Owner)
  | installationFound (installation : Installation)
  | setting (key value : String)
  | replacing (configMap : String)
  | upToDate (configMap : String)
  | listingSecrets (ns : String)
  | creatingClaim (claim : Cluster.Claim)
  | deletingClaim (name : String)
  | failed (command : String) (problem : Problem)
  | causedBy (problem : Problem)
  deriving DecidableEq

namespace Event

/-- How severe an event is. -/
def severity : Event → Severity
  | failed _ _ => .error
  | causedBy _ => .warning
  | upToDate _ => .information
  | examining _ _ => .trace
  | _ => .detail

/-- Where an event comes from. -/
def source : Event → String
  | usingKubeConfig _ => "knadmin::app"
  | examining _ _ => "knadmin_definitions::fields"
  | operatorFound _ => "knadmin_definitions::install"
  | setting _ _ => "knadmin_definitions::autoscaler"
  | upToDate _ => "knadmin::autoscaling"
  | failed _ _ | causedBy _ => "kn_admin"
  | _ => "knadmin::kubeapi"

/-- A config map of Knative Serving in messages. -/
def configMapLabel (name : String) : String := Cluster.servingNamespace ++ "/" ++ name

/-- The message of an event. -/
def message : Event → String
  | usingKubeConfig path => "using kubeconfig " ++ path
  | examining field raw => "validating " ++ field ++ " = " ++ raw
  | fetching name => "get configmap " ++ configMapLabel name
  | operatorFound owner => "config-domain owned by " ++ owner.apiVersion ++ "/" ++ owner.kind
  | installationFound installation => "installation method: " ++ installation.label
  | setting key value => "setting " ++ key ++ " = " ++ value
  | replacing name => "replace configmap " ++ configMapLabel name
  | upToDate name => name ++ " already up to date"
  | listingSecrets ns => "list registry secrets in " ++ ns
  | creatingClaim claim =>
      "create cluster domain claim " ++ claim.name ++ " for namespace " ++ claim.ns
  | deletingClaim name => "delete cluster domain claim " ++ name
  | failed command problem => command ++ " error: " ++ problem.message
  | causedBy problem => "caused by: " ++ problem.message

/-- The line on which an event is shown. -/
def line (e : Event) : String := e.source ++ ": " ++ e.message

/-- Whether an event is shown. -/
def isShown (verbosity : Nat) (e : Event) : Bool := e.severity.rank ≤ 2 + verbosity

end Event

namespace Failure

/-- The events that tell of a failed command. -/
def events (command : String) (f : Failure) : List Event :=
  .failed command f.problem :: f.causes.map .causedBy

end Failure

end ServingAdmin
