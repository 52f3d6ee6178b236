import Mathlib.Data.List.Nodup
import ServingAdmin.Cluster.Exchange
import ServingAdmin.Proofs.Cluster.Versioned
import ServingAdmin.Proofs.Script.Output

/-!
# Listing namespaces and registry secrets

A server that `ListsObjects` gives the namespaces that it holds, and of each of them the secrets
that are managed by this tool.  In which order it gives them is up to the server, and may be another
one each time.  What the exchanges of `Exchange` come to is therefore known up to a permutation.
-/

namespace ServingAdmin
namespace Cluster

open Script

/-- The namespace of a secret, if it says so. -/
def Secret.ns?
    (s : Secret) :
    Option String :=
  s.metadata.bind Metadata.ns

/-- The managed secrets of a namespace. -/
def managedIn
    (ns : String)
    (secrets : List Secret) :
    List Secret :=
  secrets.filter fun s => s.ns? = some ns && Store.isManaged s

variable {σ : Type}

/-- The server gives the namespaces and their managed secrets, in any order. -/
structure Server.ListsObjects
    (server : Server σ)
    (view : View σ) :
    Prop where
  /-- To get something changes nothing. -/
  unchanged :
    ∀ {s r}, r.action = .get → (server.answer s r).2 = s
  /-- All namespaces are given. -/
  namespaces :
    ∀ {s}, ∃ names : List String,
      Expectation.namespaces.take (server.answer s .getNamespaces).1 = .ok (names.map some) ∧
        names.Perm (view.namespaces s)
  /-- All managed secrets of a namespace are given. -/
  secrets :
    ∀ {s ns}, PlainSegment ns →
      ∃ found, Expectation.secrets.take (server.answer s (.getSecrets ns)).1 = .ok found ∧
        found.Perm (managedIn ns (view.secrets s))

namespace Server.ListsObjects

variable {server : Server σ} {view : View σ}
variable (h : server.ListsObjects view)
include h

theorem yields_namespaces
    (s : σ) :
    ∃ names, Yields server Exchange.namespaces s "" names ∧ names.Perm (view.namespaces s) := by
  obtain ⟨names, htake, hperm⟩ := h.namespaces (s := s)
  refine ⟨names, ?_, hperm⟩
  have hnames : (names.map some).mapM id = some names := by
    have hpure := List.mapM_pure (m := Option) (l := names) (f := id)
    simpa [List.mapM_map] using hpure
  exact (Yields.call Call.request?_namespaces htake (h.unchanged rfl)).bind_silent
    (.ofOption hnames)

theorem yields_secrets
    {ns : String}
    (hns : PlainSegment ns)
    (s : σ) :
    ∃ found, Yields server (Exchange.secrets ns) s "" found ∧
      found.Perm (managedIn ns (view.secrets s)) := by
  obtain ⟨found, htake, hperm⟩ := h.secrets (s := s) hns
  exact ⟨found, (Yields.call (Call.request?_secrets hns) htake (h.unchanged rfl)).report, hperm⟩

/-- The secrets of several namespaces are listed one namespace after the other. -/
theorem yields_secretsOf
    {names : List String}
    (hnames : ∀ ns ∈ names, PlainSegment ns)
    (s : σ) :
    ∃ found, Yields server (Exchange.secretsOf names) s "" found ∧
      found.Perm (names.flatMap fun ns => managedIn ns (view.secrets s)) := by
  induction names with
  | nil => exact ⟨[], .done [], List.Perm.refl _⟩
  | cons ns rest ih =>
      obtain ⟨first, hfirst, hpermFirst⟩ := h.yields_secrets (hnames ns List.mem_cons_self) s
      obtain ⟨others, hothers, hpermOthers⟩ :=
        ih fun other hother => hnames other (List.mem_cons_of_mem _ hother)
      refine ⟨first ++ others, hfirst.bind_silent (hothers.bind_silent (.done _)), ?_⟩
      rw [List.flatMap_cons]
      exact hpermFirst.append hpermOthers

end Server.ListsObjects

/-- The managed secrets of different namespaces, one namespace after the other, are the managed
secrets that are in one of them. -/
theorem flatMap_managedIn_perm
    {names : List String}
    (hnames : names.Nodup)
    (secrets : List Secret) :
    (names.flatMap fun ns => managedIn ns secrets).Perm
      (secrets.filter fun s => s.ns?.any (· ∈ names) && Store.isManaged s) := by
  induction names with
  | nil => simp
  | cons ns rest ih =>
      obtain ⟨hns, hrest⟩ := List.nodup_cons.mp hnames
      have hsplit := List.filter_append_perm (fun s : Secret => decide (s.ns? = some ns))
        (secrets.filter fun s => s.ns?.any (· ∈ ns :: rest) && Store.isManaged s)
      rw [List.filter_filter, List.filter_filter] at hsplit
      have hhere : (secrets.filter fun s => decide (s.ns? = some ns) &&
          (s.ns?.any (· ∈ ns :: rest) && Store.isManaged s)) = managedIn ns secrets := by
        refine List.filter_congr fun s _ => ?_
        cases hs : s.ns? with
        | none => simp
        | some other => by_cases hother : other = ns <;> simp [hother]
      have hthere : (secrets.filter fun s => !decide (s.ns? = some ns) &&
          (s.ns?.any (· ∈ ns :: rest) && Store.isManaged s)) =
            secrets.filter fun s => s.ns?.any (· ∈ rest) && Store.isManaged s := by
        refine List.filter_congr fun s _ => ?_
        cases hs : s.ns? with
        | none => simp
        | some other => by_cases hother : other = ns <;> simp [hother, hns]
      rw [hhere, hthere] at hsplit
      exact ((ih hrest).append_left _).trans hsplit

namespace Versioned

theorem asksForManaged_getSecrets
    (ns : String) :
    Store.asksForManaged (Request.getSecrets ns).target = true := by
  have hmanaged : (Text.splitAt '&' ('&' :: Call.selecting Registry.labelSelector)).contains
      (Call.selecting Registry.labelSelector) = true := by
    decide +kernel
  exact hmanaged

theorem listsObjects :
    server.ListsObjects view where
  unchanged := keepsObjects.untouched
  namespaces {s} := by
    change ∃ names : List String,
      Expectation.namespaces.take (s.answer .getNamespaces).1 = _ ∧ _
    refine ⟨s.namespaces, ?_, List.Perm.refl _⟩
    rw [answer_of_route Route.plain_namespaces (by decide) rfl]
    rfl
  secrets {s ns} hns := by
    change ∃ found, Expectation.secrets.take (s.answer (.getSecrets ns)).1 = _ ∧ _
    have hshort : (Route.secrets ns).segments.length < 6 := by
      simp [Route.segments]
    refine ⟨s.others.secretsIn ns (Request.getSecrets ns).target, ?_, ?_⟩
    · rw [answer_of_route (Route.plain_secrets hns) hshort rfl]
      rfl
    · simp only [Store.secretsIn, asksForManaged_getSecrets, Bool.not_true, Bool.or_false]
      exact List.Perm.refl _

end Versioned
end Cluster
end ServingAdmin
