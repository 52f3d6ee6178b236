import ServingAdmin.Cluster.Decoding
import ServingAdmin.Cluster.Status
import ServingAdmin.Text.Quoted

/-!
# Responses

The cluster gives what was asked for, refuses the request and says why, or sends a
status code and a text that has to be decoded first.  A text under an error code is
a refusal in any case: one that cannot be decoded takes its place in the message.
-/

namespace ServingAdmin
namespace Cluster

/-- What an answer holds. -/
inductive Content
  | configMap (configMap : ConfigMap)
  | namespaces (names : List String)
  | secrets (secrets : List Secret)
  | claims (claims : List Claim)
  | claim (claim : Claim)
  /-- The object is gone. -/
  | removed
  /-- A document that is no object of a known kind. -/
  | unreadable
  deriving DecidableEq

/-- How the cluster responds. -/
inductive Response
  | given (content : Content)
  | refused (refusal : Refusal)
  | raw (code : Nat) (text : String)
  deriving DecidableEq

/-- The refusal that a text under an error code stands for. -/
def Refusal.ofText (code : Nat) (text : String) : Refusal :=
  match Refusal.reader.readWhole text.toUTF8.toList with
  | .ok refusal => refusal
  | .error _ =>
      { status := Status.line code, message := Text.quoted text,
        reason := "Failed to parse error data", code := code }

/-- What is expected of an answer: the content it should have, and its decoded form. -/
structure Expectation (α : Type) where
  ofContent : Content → Option α
  reader : Json.Reader α

namespace Expectation

/-- A config map is expected. -/
def configMap : Expectation ConfigMap where
  ofContent
    | .configMap c => some c
    | _ => none
  reader := ConfigMap.reader

/-- The namespaces are expected, of which some might have no name. -/
def namespaces : Expectation (List (Option String)) where
  ofContent
    | .namespaces names => some (names.map some)
    | _ => none
  reader := listReader (namespaceReader itemDepth)

/-- Secrets are expected. -/
def secrets : Expectation (List Secret) where
  ofContent
    | .secrets secrets => some secrets
    | _ => none
  reader := listReader (Secret.reader itemDepth)

/-- Claims are expected, of which some might have no name. -/
def claims : Expectation (List ListedClaim) where
  ofContent
    | .claims claims => some (claims.map fun c => ⟨some c.name, c.ns⟩)
    | _ => none
  reader := listReader (Claim.reader itemDepth)

/-- The claim that was made is expected. -/
def claim : Expectation Unit where
  ofContent
    | .claim _ => some ()
    | _ => none
  reader := (Claim.reader 0).map fun _ => ()

/-- A removal is expected. -/
def removal : Expectation Unit where
  ofContent
    | .removed => some ()
    | _ => none
  reader := removalReader

/-- Takes what is expected out of a response. -/
def take {α : Type} (e : Expectation α) : Response → Except Fault α
  | .given content =>
      match e.ofContent content with
      | some a => .ok a
      | none => .error .unreadableAnswer
  | .refused refusal => .error (.refused refusal)
  | .raw code text =>
      if Status.isError code then .error (.refused (Refusal.ofText code text))
      else
        match e.reader.readWhole text.toUTF8.toList with
        | .ok a => .ok a
        | .error _ => .error .unreadableAnswer

end Expectation

end Cluster
end ServingAdmin
