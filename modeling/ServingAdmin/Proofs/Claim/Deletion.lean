import ServingAdmin.Proofs.Claim.History

/-!
# Deleting claims

The text that names a claim to be deleted is not checked.  It is written into the path of a request,
and the claim that is deleted is the one at that path.  For a literal segment of a path, as every
proper name is, this is the claim that the text names, and a text that cannot be sent deletes
nothing; so a run that is given such a text removes at most the claim that it was to remove
(`delete_onlyNamed`).  Of other texts nothing of the kind holds: what stands behind a hash sign is
not sent, dots go back along the path, and an empty name leaves the path of all claims.
-/

namespace ServingAdmin
namespace Claim

open Cluster
open Script

/-! ### Proper names -/

theorem plainChar_of_isAlnum
    {c : Char}
    (h : isAlnum c = true) :
    PlainChar c := by
  refine .of_isLabelChar ?_
  rw [isLabelChar, ← isAlnum, h, Bool.true_or]

/-- A proper name has the characters of labels, and dots. -/
theorem ProperName.char_cases
    {name : String}
    (h : ProperName name)
    {c : Char}
    (hc : c ∈ name.toList) :
    c = '.' ∨ isAlnum c = true ∨ c = '-' := by
  rcases Text.eq_or_mem_splitAt '.' hc with hdot | ⟨label, hlabel, hmem⟩
  · exact Or.inl hdot
  · exact Or.inr ((h.labels label hlabel).chars c hmem)

/-- A proper name is a literal segment of a path. -/
theorem ProperName.literalSegment
    {name : String}
    (h : ProperName name) :
    LiteralSegment name := by
  obtain ⟨first, rest, hname, hfirst⟩ := h.head
  have hdot : first ≠ '.' := by
    rintro rfl
    cases hfirst
  have hcode : first ≠ '%' := by
    rintro rfl
    cases hfirst
  refine ⟨⟨fun c hc => ?_, ?_⟩, ?_, fun hmem => ?_⟩
  · rcases h.char_cases hc with rfl | halnum | rfl
    · exact .of_not_mem_marks (by decide) (by decide)
    · exact plainChar_of_isAlnum halnum
    · exact .of_isLabelChar (by decide)
  · simp [hname, Path.staysHere, Path.goesBack, Path.dots?_of_head hdot hcode]
  · rintro rfl
    cases hname
  · rcases h.char_cases hmem with hchar | hchar | hchar <;> cases hchar

/-! ### Runs -/

variable {σ : Type}
variable {server : Server σ} {view : View σ}

/-- What a run that is to delete the claim of a name comes to. -/
structure DeletesClaim
    (view : View σ)
    (name : String)
    (r : Record σ) :
    Prop where
  /-- It succeeds only if the claim is there, which is then removed. -/
  succeeds :
    r.run.exitCode = 0 →
      (∃ c ∈ view.claims r.before, c.name = name) ∧
        (view.claims r.after).Perm ((view.claims r.before).filter (·.name ≠ name))
  /-- Otherwise nothing changes. -/
  fails :
    r.run.exitCode ≠ 0 → r.after = r.before
  /-- No claim of another name is removed. -/
  othersKept :
    ∀ c ∈ view.claims r.before, c.name ≠ name → c ∈ view.claims r.after

theorem DeletesClaim.of_outcomes
    {name : String}
    {r : Record σ}
    (hsucceeds :
      r.run.exitCode = 0 →
        (∃ c ∈ view.claims r.before, c.name = name) ∧
          (view.claims r.after).Perm ((view.claims r.before).filter (·.name ≠ name)))
    (hfails : r.run.exitCode ≠ 0 → r.after = r.before) :
    DeletesClaim view name r := by
  refine ⟨hsucceeds, hfails, fun c hc hne => ?_⟩
  by_cases hcode : r.run.exitCode = 0
  · obtain ⟨_, hperm⟩ := hsucceeds hcode
    exact hperm.mem_iff.mpr (List.mem_filter.mpr ⟨hc, decide_eq_true hne⟩)
  · rw [hfails hcode]
    exact hc

/-- A run that is given a text which names itself deletes only the claim that it names. -/
theorem delete_onlyNamed
    (h : server.DeletesClaims view)
    {isThere : String → Bool}
    {words : List String}
    {i : Invocation}
    {text : String}
    (hread : Invocation.read words = .ok i)
    (hcommand : i.command = .deleteClaim text)
    (htext : NamesItself text)
    (s : σ) :
    DeletesClaim view text (Run.record isThere server words s) := by
  refine .of_outcomes (fun hcode => ?_) fun hcode => ?_
  · obtain ⟨parameters, hparameters⟩ := parameters_of_exitCode_eq_zero server hread s hcode
    have hdone := (exitCode_record_eq_zero_iff server hread hparameters s).mp hcode
    have hafter := after_record server hread hparameters s
    rw [hcommand] at hdone hafter
    have heffect : effect server (Command.deleteClaim text).script s =
        effect server (Exchange.delete text) s := effect_deleteCommand text s
    rw [heffect] at hdone hafter
    rw [hafter]
    exact h.claims_delete htext hdone
  · refine after_eq_of_exitCode (fun other hother => ?_) isThere s hcode
    cases hread.symm.trans hother
    rw [hcommand]
    exact allOrNothing_deleteCommand (h.allOrNothing_delete htext)

/-- A claim is deleted by its proper name. -/
theorem delete_onlyNamed_properName :
    let r := Run.record (fun _ => false) Versioned.server ["cdc", "delete", "example.com"]
      Autoscaling.freshCluster
    Versioned.server.DeletesClaims Versioned.view ∧
      NamesItself "example.com" ∧
      r.run.exitCode = 0 ∧ DeletesClaim Versioned.view "example.com" r := by
  intro r
  have hread : Invocation.read ["cdc", "delete", "example.com"] =
      .ok ⟨["cdc", "delete"], 0, false, none, .deleteClaim "example.com"⟩ :=
    Invocation.read_deleteClaim (by decide)
  have hcheck : check "example.com" "default" = .ok () := by
    decide +kernel
  have hname : ProperName "example.com" := ((check_eq_ok_iff _ _).mp hcheck).1
  have hitself : NamesItself "example.com" := Or.inr hname.literalSegment
  refine ⟨Versioned.deletesClaims, hitself, ?_, ?_⟩
  · decide +kernel
  · exact delete_onlyNamed Versioned.deletesClaims hread rfl hitself Autoscaling.freshCluster

/-- Behind a hash sign a name can be anything: the claim before it is deleted, although there is no
claim of the whole text, and the text is told to be deleted. -/
theorem delete_behindHash :
    let r := Run.record (fun _ => false) Versioned.server ["cdc", "delete", "example.com#old"]
      Autoscaling.freshCluster
    Versioned.view.claims r.before = [⟨"example.com", "default"⟩] ∧
      r.run.exitCode = 0 ∧
      r.run.output = "Cluster Domain Claim 'example.com#old' deleted.\n" ∧
      Versioned.view.claims r.after = [] := by
  decide +kernel

end Claim
end ServingAdmin
