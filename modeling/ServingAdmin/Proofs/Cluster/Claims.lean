import Mathlib.Data.List.Perm.Subperm
import ServingAdmin.Proofs.Cluster.Exchange
import ServingAdmin.Proofs.Cluster.Versioned

/-!
# Claims in a cluster

A server that `KeepsClaims` makes a claim exactly if its name is free and adds it as it was sent.
Of deletions it promises no more than that none of them makes a claim, whatever is deleted.  A
server that `DeletesClaims` finds a claim by the path of the request; this is promised for names
that are literal segments of the path, and for no other text.
-/

namespace ServingAdmin
namespace Cluster

open Script

variable {σ : Type}

/-- The server makes claims of free names, and makes no claim where it is to delete something. -/
structure Server.KeepsClaims
    (server : Server σ)
    (view : View σ) :
    Prop extends server.MakesClaims view where
  /-- A name is claimed only once. -/
  made :
    ∀ {s claim}, Expectation.claim.IsMet (server.answer s (.postClaim claim)).1 ↔
      ∀ c ∈ view.claims s, c.name ≠ claim.name
  /-- A claim that is made is added as it was sent. -/
  added :
    ∀ {s claim}, Expectation.claim.IsMet (server.answer s (.postClaim claim)).1 →
      (view.claims (server.answer s (.postClaim claim)).2).Perm (claim :: view.claims s)
  /-- To delete something makes no claim. -/
  dwindled :
    ∀ {s r}, r.action = .delete → (view.claims (server.answer s r).2).Subperm (view.claims s)

/-- The server deletes the claim of a literal name by the path of the request. -/
structure Server.DeletesClaims
    (server : Server σ)
    (view : View σ) :
    Prop where
  /-- A deletion that is not confirmed changes nothing. -/
  notDeleted :
    ∀ {s name}, LiteralSegment name →
      ¬ Expectation.removal.IsMet (server.answer s (.deleteClaim name)).1 →
      (server.answer s (.deleteClaim name)).2 = s
  /-- What is deleted was there. -/
  found :
    ∀ {s name}, LiteralSegment name →
      Expectation.removal.IsMet (server.answer s (.deleteClaim name)).1 →
      ∃ c ∈ view.claims s, c.name = name
  /-- No other claim is deleted. -/
  removed :
    ∀ {s name}, LiteralSegment name →
      Expectation.removal.IsMet (server.answer s (.deleteClaim name)).1 →
      (view.claims (server.answer s (.deleteClaim name)).2).Perm
        ((view.claims s).filter (·.name ≠ name))

/-! ### Exchanges -/

theorem action_of_request?_delete
    {text : String}
    {r : Request}
    (hr : (Call.delete text).request? = some r) :
    r.action = .delete := by
  obtain ⟨target, _, rfl⟩ := Option.map_eq_some_iff.mp hr
  rfl

section Exchanges

variable {server : Server σ} {view : View σ}

namespace Server.KeepsClaims

variable (h : server.KeepsClaims view)
include h

/-- A claim is made exactly if its name is free. -/
theorem outcome_create
    (claim : Claim)
    (s : σ) :
    (effect server (Exchange.create claim) s).outcome = .done () ↔
      ∀ c ∈ view.claims s, c.name ≠ claim.name := by
  rw [Exchange.create, effect_report, outcome_call_eq_done_iff (Call.request?_create claim)]
  exact h.made

theorem claims_create
    {claim : Claim}
    {s : σ}
    (hdone : (effect server (Exchange.create claim) s).outcome = .done ()) :
    (view.claims (effect server (Exchange.create claim) s).state).Perm
      (claim :: view.claims s) := by
  have hrequest := Call.request?_create claim
  rw [Exchange.create, effect_report] at hdone ⊢
  have hmet := (outcome_call_eq_done_iff hrequest s).mp hdone
  rw [effect_call hrequest]
  exact h.added hmet

/-- Whatever text is to be deleted, no claim is made. -/
theorem subperm_delete
    (text : String)
    (s : σ) :
    (view.claims (effect server (Exchange.delete text) s).state).Subperm (view.claims s) := by
  rw [Exchange.delete, effect_report]
  cases hr : (Call.delete text).request? with
  | none => rw [effect_call_of_none hr]
  | some r =>
      rw [effect_call hr]
      exact h.dwindled (action_of_request?_delete hr)

end Server.KeepsClaims

namespace Server.DeletesClaims

variable (h : server.DeletesClaims view)
variable {text : String} (htext : NamesItself text)
include h htext

theorem allOrNothing_delete :
    AllOrNothing server (Exchange.delete text) := by
  refine Cluster.allOrNothing_delete fun r hr _ hmet => ?_
  obtain ⟨hliteral, rfl⟩ := htext.request?_delete hr
  exact h.notDeleted hliteral hmet

/-- A deletion that ends well has found the claim of the text, and has removed it. -/
theorem claims_delete
    {s : σ}
    (hdone : (effect server (Exchange.delete text) s).outcome = .done ()) :
    (∃ c ∈ view.claims s, c.name = text) ∧
      (view.claims (effect server (Exchange.delete text) s).state).Perm
        ((view.claims s).filter (·.name ≠ text)) := by
  rw [Exchange.delete, effect_report] at hdone ⊢
  cases hr : (Call.delete text).request? with
  | none =>
      rw [effect_call_of_none hr] at hdone
      cases hdone
  | some r =>
      have hmet := (outcome_call_eq_done_iff hr s).mp hdone
      obtain ⟨hliteral, rfl⟩ := htext.request?_delete hr
      rw [effect_call hr]
      exact ⟨h.found hliteral hmet, h.removed hliteral hmet⟩

end Server.DeletesClaims

end Exchanges

/-! ### A cluster with versions -/

/-- Where something is to be deleted, a store keeps no claim that it did not have. -/
theorem Store.claims_answer_of_delete
    (s : Store)
    {r : Request}
    (hr : r.action = .delete) :
    (s.answer r).2.claims.Sublist s.claims := by
  obtain ⟨action, target⟩ := r
  obtain rfl : action = .delete := hr
  unfold answer
  split
  · exact List.Sublist.refl _
  · split
    · rename_i route _
      cases route with
      | configMap name => exact List.Sublist.refl _
      | namespaces => exact List.Sublist.refl _
      | secrets ns => exact List.Sublist.refl _
      | claims => exact List.Sublist.refl _
      | claim name =>
          simp only [answerAt]
          split
          · exact List.filter_sublist
          · exact List.Sublist.refl _
    · exact List.Sublist.refl _

namespace Versioned

theorem any_name_iff
    (claims : List Claim)
    (name : String) :
    claims.any (·.name = name) = true ↔ ∃ c ∈ claims, c.name = name := by
  simp

theorem keepsClaims :
    server.KeepsClaims view where
  toMakesClaims := makesClaims
  made {s claim} := by
    change Expectation.claim.IsMet (s.answer (.postClaim claim)).1 ↔
      ∀ c ∈ s.claims, c.name ≠ claim.name
    rw [answer_postClaim]
    split
    · rename_i hclaimed
      obtain ⟨c, hc, hname⟩ := (any_name_iff s.claims claim.name).mp hclaimed
      refine iff_of_false ?_ fun hfree => hfree c hc hname
      rintro ⟨_, htake⟩
      cases htake
    · rename_i hfree
      refine iff_of_true ⟨(), rfl⟩ fun c hc hname => hfree ?_
      exact (any_name_iff s.claims claim.name).mpr ⟨c, hc, hname⟩
  added {s claim} hmet := by
    change Expectation.claim.IsMet (s.answer (.postClaim claim)).1 at hmet
    change ((s.answer (.postClaim claim)).2.claims).Perm (claim :: s.claims)
    rw [answer_postClaim] at hmet ⊢
    split at hmet
    · obtain ⟨_, htake⟩ := hmet
      cases htake
    · rename_i hfree
      rw [if_neg hfree]
      exact List.perm_append_comm
  dwindled {s r} hr := by
    change ((s.answer r).2.claims).Subperm s.claims
    rw [answer]
    split
    · rw [hr]
      simp only [answerMap]
      split <;> exact List.Subperm.refl _
    · exact (Store.claims_answer_of_delete s.others hr).subperm

theorem deletesClaims :
    server.DeletesClaims view where
  notDeleted {s name} hname := confinesDeletions.notDeleted (Request.deletesAt_deleteClaim hname)
  found {s name} hname hmet := by
    change Expectation.removal.IsMet (s.answer (.deleteClaim name)).1 at hmet
    change ∃ c ∈ s.claims, c.name = name
    rw [answer_of_deletesAt (Request.deletesAt_deleteClaim hname)] at hmet
    split at hmet
    · rename_i hclaimed
      exact (any_name_iff s.claims name).mp hclaimed
    · obtain ⟨_, htake⟩ := hmet
      cases htake
  removed {s name} hname hmet := by
    change Expectation.removal.IsMet (s.answer (.deleteClaim name)).1 at hmet
    change ((s.answer (.deleteClaim name)).2.claims).Perm (s.claims.filter (·.name ≠ name))
    rw [answer_of_deletesAt (Request.deletesAt_deleteClaim hname)] at hmet ⊢
    split at hmet
    · rename_i hclaimed
      rw [if_pos hclaimed]
    · obtain ⟨_, htake⟩ := hmet
      cases htake

end Versioned
end Cluster
end ServingAdmin
