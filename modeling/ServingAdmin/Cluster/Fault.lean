import ServingAdmin.Text.Quoted

/-!
# Failed exchanges with the cluster

An exchange fails because the cluster refuses the request, because its answer is not
the object asked for, or because the name of the object cannot be part of a request
target, in which case nothing is sent.
-/

namespace ServingAdmin
namespace Cluster

/-- What the cluster says about a request that it refuses. -/
structure Refusal where
  status : String
  message : String
  reason : String
  code : Nat
  deriving DecidableEq

/-- The message of a refusal: its own, its reason, and all its parts once more in full. -/
def Refusal.text (r : Refusal) : String :=
  "ApiError: " ++ r.message ++ ": " ++ r.reason ++ " (ErrorResponse \x7b status: " ++
    Text.quoted r.status ++ ", message: " ++ Text.quoted r.message ++ ", reason: " ++
    Text.quoted r.reason ++ ", code: " ++ toString r.code ++ " \x7d)"

/-- Why an exchange failed. -/
inductive Fault
  | refused (refusal : Refusal)
  | unreadableAnswer
  | invalidTarget
  deriving DecidableEq

/-- The message of a fault. -/
def Fault.message : Fault → String
  | refused r => r.text
  | unreadableAnswer => "Error deserializing response"
  | invalidTarget => "HttpError: invalid uri character"

end Cluster
end ServingAdmin
