import ServingAdmin.Cluster.Call
import ServingAdmin.Registry.Secret

/-!
# A cluster in memory

A server keeps a state and answers requests one after the other.  `Store.server` is one
that keeps its objects in memory:

* names are found by the path of the request, and what is not there is refused;
* secrets are listed for one namespace, and only the managed ones if the query says so;
* claims are added behind the others, and a name can be claimed only once;
* requests that are marked as faulty get a fixed response and change nothing.
-/

namespace ServingAdmin
namespace Cluster

/-- Something that answers requests, one after the other. -/
structure Server (σ : Type) where
  answer : σ → Request → Response × σ

/-- A stored document. -/
inductive Document
  | configMap (configMap : ConfigMap)
  /-- A document that is no config map. -/
  | unreadable
  deriving DecidableEq

/-- The objects in memory. -/
structure Store where
  configMaps : KeyMap Document
  namespaces : List String
  secrets : List Secret
  claims : List Claim
  /-- The code and text that answer a method and path. -/
  faults : KeyMap (Nat × String)
  deriving DecidableEq

/-- What a document is given as. -/
def Document.content : Document → Content
  | configMap c => .configMap c
  | unreadable => .unreadable

namespace Store

/-- The refusal for something that is not there. -/
def missing (what : String) : Response :=
  .refused ⟨"Failure", what ++ " not found", "NotFound", 404⟩

/-- An object in messages. -/
def label (plural name : String) : String := plural ++ " \"" ++ name ++ "\""

/-- The refusal of a name that is claimed already. -/
def claimed (name : String) : Response :=
  .refused ⟨"Failure", label Claim.plural name ++ " already exists", "AlreadyExists", 409⟩

/-- Whether a secret is marked as managed here. -/
def isManaged (s : Secret) : Bool :=
  ((s.metadata.bind Metadata.labels).bind (·.get? Registry.managedByLabel)) =
    some Registry.managerName

/-- Whether a query asks for the managed secrets only. -/
def asksForManaged (t : Target) : Bool :=
  match t.query with
  | some query => (Text.splitAt '&' query).contains (Call.selecting Registry.labelSelector)
  | none => false

/-- The secrets of a namespace that a target asks for. -/
def secretsIn (s : Store) (ns : String) (t : Target) : List Secret :=
  s.secrets.filter fun secret =>
    (secret.metadata.bind Metadata.ns) = some ns && (isManaged secret || !asksForManaged t)

/-- Answers a request for a route. -/
def answerAt (s : Store) (r : Request) : Route → Response × Store
  | .configMap name =>
      match r.action with
      | .get =>
          match s.configMaps.get? name with
          | some document => (.given document.content, s)
          | none => (missing (label "configmaps" name), s)
      | .replace c =>
          (.given (.configMap c),
            { s with configMaps := s.configMaps.insert name (.configMap c) })
      | _ => (unknown r.target, s)
  | .namespaces =>
      match r.action with
      | .get => (.given (.namespaces s.namespaces), s)
      | _ => (unknown r.target, s)
  | .secrets ns =>
      match r.action with
      | .get => (.given (.secrets (s.secretsIn ns r.target)), s)
      | _ => (unknown r.target, s)
  | .claims =>
      match r.action with
      | .get => (.given (.claims s.claims), s)
      | .create claim =>
          if s.claims.any (·.name = claim.name) then (claimed claim.name, s)
          else (.given (.claim claim), { s with claims := s.claims ++ [claim] })
      | _ => (unknown r.target, s)
  | .claim name =>
      match r.action with
      | .delete =>
          if s.claims.any (·.name = name) then
            (.given .removed, { s with claims := s.claims.filter (·.name ≠ name) })
          else (missing (label Claim.plural name), s)
      | _ => (unknown r.target, s)
where
  /-- The refusal of a target that has no meaning. -/
  unknown (t : Target) : Response := missing (label "path" (String.ofList t.path))

/-- Under which a fault is marked. -/
def faultKey (r : Request) : String := r.action.method ++ " " ++ String.ofList r.target.path

/-- Answers a request. -/
def answer (s : Store) (r : Request) : Response × Store :=
  match s.faults.get? (faultKey r) with
  | some (code, text) => (.raw code text, s)
  | none =>
      match Route.ofPath? r.target.path with
      | some route => s.answerAt r route
      | none => (answerAt.unknown r.target, s)

/-- The server that keeps its objects in memory. -/
def server : Server Store := ⟨answer⟩

end Store

end Cluster
end ServingAdmin
