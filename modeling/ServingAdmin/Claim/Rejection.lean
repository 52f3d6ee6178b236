/-!
# Rejected claims

The reasons for which a cluster domain claim is not sent to the cluster, and their
messages.
-/

namespace ServingAdmin

/-- Why a claim is not sent. -/
inductive ClaimRejection
  | badName (name : String)
  | missingNamespace
  | badNamespace (ns : String)
  deriving DecidableEq

/-- The message of a rejection. -/
def ClaimRejection.message : ClaimRejection → String
  | badName name =>
      "invalid cluster domain claim name '" ++ name ++ "': must be a lowercase DNS subdomain"
  | missingNamespace => "cluster domain claim requires a namespace"
  | badNamespace ns => "invalid namespace '" ++ ns ++ "': must be a lowercase DNS label"

end ServingAdmin
