import ServingAdmin.Cluster.Store
import ServingAdmin.Proofs.Cluster.Requests

/-!
# What is assumed of a cluster

Commands are played against a server of any kind, of which nothing is known but what it
promises.  A `View` says which objects a state of the server holds, and the promises are
properties of the server under a view.  They speak of the requests that commands make, and
of names and paths that are written out:

* `Server.KeepsObjects`: what is got is what is held, and a config map is replaced exactly
  if the response confirms it, without any other object.
* `Server.ServesObjects`: in addition, what is held can be got, and can be replaced by
  whoever knows its version.
* `Server.CountsRevisions`: in addition to the first, the version of one config map tells
  its states apart, and a replacement that carries another version is not confirmed.
* `Server.MakesClaims`: in addition to the first, what is made are claims.
* `Server.ConfinesDeletions`: in addition, what is deleted at the path of a claim are
  claims.  Nothing is said of deletions at other paths.
-/

namespace ServingAdmin
namespace Cluster

variable {σ : Type}

/-- The version that a config map carries. -/
def ConfigMap.version?
    (c : ConfigMap) :
    Option String :=
  c.metadata.bind Metadata.resourceVersion

/-- A config map under another version. -/
def ConfigMap.withVersion
    (version : Option String)
    (c : ConfigMap) :
    ConfigMap :=
  { c with metadata := c.metadata.map fun m => { m with resourceVersion := version } }

@[simp] theorem ConfigMap.settings_withVersion
    (version : Option String)
    (c : ConfigMap) :
    (c.withVersion version).settings = c.settings := by
  rfl

/-- A response that can be taken for what is expected. -/
def Expectation.IsMet
    {α : Type}
    (e : Expectation α)
    (response : Response) :
    Prop :=
  ∃ a, e.take response = .ok a

/-- The objects that a state holds. -/
structure View (σ : Type) where
  configMap? : σ → String → Option ConfigMap
  namespaces : σ → List String
  secrets : σ → List Secret
  claims : σ → List Claim

namespace View

/-- Two states hold the same objects except for claims. -/
structure AgreeExceptClaims
    (view : View σ)
    (s s' : σ) :
    Prop where
  configMaps : ∀ name, view.configMap? s' name = view.configMap? s name
  namespaces : view.namespaces s' = view.namespaces s
  secrets : view.secrets s' = view.secrets s

/-- Two states hold the same objects except for the config map of a name. -/
structure AgreeExceptMap
    (view : View σ)
    (name : String)
    (s s' : σ) :
    Prop where
  configMaps : ∀ other, other ≠ name → view.configMap? s' other = view.configMap? s other
  namespaces : view.namespaces s' = view.namespaces s
  secrets : view.secrets s' = view.secrets s
  claims : view.claims s' = view.claims s

theorem AgreeExceptClaims.refl
    (view : View σ)
    (s : σ) :
    view.AgreeExceptClaims s s :=
  ⟨fun _ => rfl, rfl, rfl⟩

theorem AgreeExceptMap.refl
    (view : View σ)
    (name : String)
    (s : σ) :
    view.AgreeExceptMap name s s :=
  ⟨fun _ _ => rfl, rfl, rfl, rfl⟩

end View

/-- A response that is no error. -/
def Response.Succeeds : Response → Prop
  | .given _ => True
  | .refused _ => False
  | .raw code _ => Status.isError code = false

/-- The server changes its state only for requests that are more than a look and that it answers
with success. -/
def Server.ChangesOnSuccess
    (server : Server σ) :
    Prop :=
  ∀ s r, (server.answer s r).2 ≠ s → r.action ≠ .get ∧ (server.answer s r).1.Succeeds

/-- The server holds config maps, gives them out, and changes one only if it confirms that the map
has been replaced. -/
structure Server.KeepsObjects
    (server : Server σ)
    (view : View σ) :
    Prop where
  /-- A config map bears the name under which it is held. -/
  named :
    ∀ {s name c}, view.configMap? s name = some c → c.name? = some name
  /-- To get something changes nothing. -/
  untouched :
    ∀ {s r}, r.action = .get → (server.answer s r).2 = s
  /-- What is got is held. -/
  held :
    ∀ {s name c}, LiteralSegment name →
      Expectation.configMap.take (server.answer s (.getMap name)).1 = .ok c →
      view.configMap? s name = some c
  /-- A replacement that is not confirmed changes nothing. -/
  kept :
    ∀ {s name c}, LiteralSegment name →
      ¬ Expectation.configMap.IsMet (server.answer s (.putMap name c)).1 →
      (server.answer s (.putMap name c)).2 = s
  /-- A config map that was replaced is the one that was sent, under a version of the server. -/
  replaced :
    ∀ {s name c}, LiteralSegment name →
      Expectation.configMap.IsMet (server.answer s (.putMap name c)).1 →
      ∃ version,
        view.configMap? (server.answer s (.putMap name c)).2 name = some (c.withVersion version)
  /-- No other object is replaced. -/
  othersKept :
    ∀ {s name c}, LiteralSegment name →
      view.AgreeExceptMap name s (server.answer s (.putMap name c)).2

/-- The server gives what it holds, and takes what replaces the version that it holds. -/
structure Server.ServesObjects
    (server : Server σ)
    (view : View σ) :
    Prop extends server.KeepsObjects view where
  /-- What is held can be got. -/
  given :
    ∀ {s name c}, LiteralSegment name → view.configMap? s name = some c →
      Expectation.configMap.take (server.answer s (.getMap name)).1 = .ok c
  /-- What carries the version that is held can replace it. -/
  accepted :
    ∀ {s name c old}, LiteralSegment name → c.name? = some name →
      view.configMap? s name = some old → c.version? = old.version? →
      Expectation.configMap.IsMet (server.answer s (.putMap name c)).1

/-- The revisions of a config map are counted, and its version tells which one it is. -/
structure Server.CountsRevisions
    (server : Server σ)
    (view : View σ)
    (name : String)
    (revision : σ → Nat)
    (stamp : Nat → String) :
    Prop extends server.KeepsObjects view where
  /-- No two revisions have one version. -/
  distinct :
    Function.Injective stamp
  /-- The version of the config map is that of its revision. -/
  stamped :
    ∀ {s c}, view.configMap? s name = some c → c.version? = some (stamp (revision s))
  /-- What replaces the config map carries its version. -/
  checked :
    ∀ {s c}, Expectation.configMap.IsMet (server.answer s (.putMap name c)).1 →
      c.version? = some (stamp (revision s))
  /-- A replacement is a new revision. -/
  advanced :
    ∀ {s c}, Expectation.configMap.IsMet (server.answer s (.putMap name c)).1 →
      revision s < revision (server.answer s (.putMap name c)).2

/-- The server makes claims where it is asked to, and then nothing else. -/
structure Server.MakesClaims
    (server : Server σ)
    (view : View σ) :
    Prop extends server.KeepsObjects view where
  /-- A claim that is not confirmed changes nothing. -/
  notMade :
    ∀ {s claim}, ¬ Expectation.claim.IsMet (server.answer s (.postClaim claim)).1 →
      (server.answer s (.postClaim claim)).2 = s
  /-- Only claims are made. -/
  created :
    ∀ {s claim}, view.AgreeExceptClaims s (server.answer s (.postClaim claim)).2

/-- At the path of a claim the server deletes nothing else, and nothing without confirming it. -/
structure Server.ConfinesDeletions
    (server : Server σ)
    (view : View σ) :
    Prop extends server.MakesClaims view where
  /-- A deletion that is not confirmed changes nothing. -/
  notDeleted :
    ∀ {s r name}, r.DeletesAt name → ¬ Expectation.removal.IsMet (server.answer s r).1 →
      (server.answer s r).2 = s
  /-- Only claims are deleted. -/
  deleted :
    ∀ {s r name}, r.DeletesAt name → view.AgreeExceptClaims s (server.answer s r).2

end Cluster
end ServingAdmin
