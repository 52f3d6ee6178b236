import ServingAdmin.Proofs.Claim.Lines
import ServingAdmin.Proofs.Cluster.Claims
import ServingAdmin.Proofs.Run.Frame

/-!
# Claims along histories

A run adds a claim that passes the check under a name that was free, or leaves no claim that was
not there before (`ClaimStep`).  Of a deletion no more is needed than that, whatever it deletes.
Each of these steps keeps the names of claims apart and leaves only claims that were there at first
or have passed the check, so this holds along every history (`claims_alongHistory`), whatever
commands are run in between.
-/

namespace ServingAdmin
namespace Claim

open Cluster
open CommandLine (Choice StandsAlone)
open Script

variable {σ : Type}
variable {server : Server σ} {view : View σ}

/-! ### The commands -/

theorem effect_createCommand_of_error
    {name ns : String}
    {failure : Failure}
    (h : check name ns = .error failure)
    (s : σ) :
    effect server (createCommand name ns) s = ⟨.failed failure, [], s⟩ := by
  rw [createCommand, h]
  rfl

/-- Behind the check the command has the effect of its exchange. -/
theorem effect_createCommand_of_ok
    {name ns : String}
    (h : check name ns = .ok ())
    (s : σ) :
    effect server (createCommand name ns) s =
      effect server (Exchange.create ⟨name, ns⟩) s := by
  rw [createCommand, h]
  exact effect_bind_print server (Exchange.create ⟨name, ns⟩) _ s

theorem effect_deleteCommand
    (text : String)
    (s : σ) :
    effect server (deleteCommand text) s = effect server (Exchange.delete text) s :=
  effect_bind_print server (Exchange.delete text) _ s

section Commands

variable (h : server.KeepsClaims view)
include h

/-- A claim is made exactly if it passes the check and its name is free. -/
theorem outcome_createCommand
    (name ns : String)
    (s : σ) :
    (effect server (createCommand name ns) s).outcome = .done () ↔
      check name ns = .ok () ∧ ∀ c ∈ view.claims s, c.name ≠ name := by
  cases hcheck : check name ns with
  | error failure =>
      rw [effect_createCommand_of_error hcheck]
      simp
  | ok a =>
      rw [effect_createCommand_of_ok hcheck, h.outcome_create]
      simp

theorem claims_createCommand
    {name ns : String}
    {s : σ}
    (hdone : (effect server (createCommand name ns) s).outcome = .done ()) :
    (view.claims (effect server (createCommand name ns) s).state).Perm
      (⟨name, ns⟩ :: view.claims s) := by
  obtain ⟨hcheck, _⟩ := (outcome_createCommand h name ns s).mp hdone
  rw [effect_createCommand_of_ok hcheck] at hdone ⊢
  exact h.claims_create hdone

end Commands

/-! ### Steps -/

/-- What a run may do to the claims. -/
inductive ClaimStep (before after : List Cluster.Claim) : Prop
  | fewer
      (h : after.Subperm before)
  | added
      (claim : Cluster.Claim)
      (hcheck : check claim.name claim.ns = .ok ())
      (hfree : ∀ c ∈ before, c.name ≠ claim.name)
      (hafter : after.Perm (claim :: before))

namespace ClaimStep

variable {before after : List Cluster.Claim}

theorem of_eq
    (h : after = before) :
    ClaimStep before after :=
  .fewer (h ▸ List.Subperm.refl before)

/-- Different claims keep different names. -/
theorem nodup
    (h : ClaimStep before after)
    (hbefore : (before.map Cluster.Claim.name).Nodup) :
    (after.map Cluster.Claim.name).Nodup := by
  cases h with
  | fewer h =>
      obtain ⟨part, hafter, hpart⟩ := h
      exact (hafter.map Cluster.Claim.name).nodup_iff.mp
        (hbefore.sublist (hpart.map Cluster.Claim.name))
  | added claim _ hfree hafter =>
      have hnew : claim.name ∉ before.map Cluster.Claim.name := by
        intro hmem
        obtain ⟨c, hc, hname⟩ := List.mem_map.mp hmem
        exact hfree c hc hname
      exact (hafter.map Cluster.Claim.name).nodup_iff.mpr (List.nodup_cons.mpr ⟨hnew, hbefore⟩)

/-- A claim was there before, or it has passed the check. -/
theorem mem_or_checked
    (h : ClaimStep before after)
    {c : Cluster.Claim}
    (hc : c ∈ after) :
    c ∈ before ∨ check c.name c.ns = .ok () := by
  cases h with
  | fewer h => exact Or.inl (h.subset hc)
  | added claim hcheck _ hafter =>
      rcases List.mem_cons.mp (hafter.mem_iff.mp hc) with rfl | hbefore
      · exact Or.inr hcheck
      · exact Or.inl hbefore

end ClaimStep

section Steps

variable (h : server.KeepsClaims view)
include h

/-- Every command makes a step. -/
theorem claimStep_script
    (c : Command)
    (s : σ) :
    ClaimStep (view.claims s) (view.claims (effect server c.script s).state) := by
  rcases c.lists_or_updates_or_changesClaims with hlists | hupdates | hclaims
  · exact .of_eq (congrArg view.claims (reads_of_lists h.toKeepsObjects hlists s))
  · exact .of_eq (agreeExceptData_script h.toKeepsObjects hupdates s).claims
  · cases hclaims with
    | create name ns =>
        by_cases hdone : (effect server (createCommand name ns) s).outcome = .done ()
        · obtain ⟨hcheck, hfree⟩ := (outcome_createCommand h name ns s).mp hdone
          exact .added ⟨name, ns⟩ hcheck hfree (claims_createCommand h hdone)
        · have hsame := allOrNothing_createCommand h.toMakesClaims name ns s fun _ => hdone
          exact .of_eq (congrArg view.claims hsame)
    | delete text =>
        change ClaimStep _ (view.claims (effect server (deleteCommand text) s).state)
        rw [effect_deleteCommand]
        exact .fewer (h.subperm_delete text s)

/-- Every run makes a step. -/
theorem claimStep_record
    (isThere : String → Bool)
    (words : List String)
    (s : σ) :
    ClaimStep (view.claims s) (view.claims (Run.record isThere server words s).after) := by
  rcases after_cases isThere words s with hsame | ⟨i, _, _, hafter, _⟩
  · exact .of_eq (congrArg view.claims hsame)
  · rw [hafter]
    exact claimStep_script h i.command s

/-! ### Histories -/

/-- Names of claims stay apart along a history. -/
theorem nodup_of_mem_history
    (isThere : String → Bool)
    {lines : List (List String)}
    {s : σ}
    (hs : ((view.claims s).map Cluster.Claim.name).Nodup)
    {r : Record σ}
    (hr : r ∈ Run.history isThere server lines s) :
    ((view.claims r.after).map Cluster.Claim.name).Nodup := by
  refine Run.history_invariant
    (P := fun s => ((view.claims s).map Cluster.Claim.name).Nodup) ?_ hs hr
  intro words _ s' hs'
  exact (claimStep_record h isThere words s').nodup hs'

/-- A claim that appears along a history has passed the check. -/
theorem checked_of_mem_history
    (isThere : String → Bool)
    {lines : List (List String)}
    {s : σ}
    {r : Record σ}
    (hr : r ∈ Run.history isThere server lines s) :
    ∀ c ∈ view.claims r.after, c ∈ view.claims s ∨ check c.name c.ns = .ok () := by
  refine Run.history_invariant
    (P := fun s' => ∀ c ∈ view.claims s', c ∈ view.claims s ∨ check c.name c.ns = .ok ())
    ?_ (fun c hc => Or.inl hc) hr
  intro words _ s' hs' c hc
  rcases (claimStep_record h isThere words s').mem_or_checked hc with hbefore | hcheck
  · exact hs' c hbefore
  · exact Or.inr hcheck

/-- What a run that is to make a claim comes to. -/
structure MakesClaim
    (view : View σ)
    (name ns : String)
    (r : Record σ) :
    Prop where
  /-- It succeeds exactly if the claim passes the check and the name is free. -/
  succeeds :
    r.run.exitCode = 0 ↔ check name ns = .ok () ∧ ∀ c ∈ view.claims r.before, c.name ≠ name
  /-- Then the claim is added, and nothing else changes. -/
  added :
    r.run.exitCode = 0 →
      (view.claims r.after).Perm (⟨name, ns⟩ :: view.claims r.before) ∧
        view.AgreeExceptClaims r.before r.after
  /-- Otherwise nothing changes. -/
  unchanged :
    r.run.exitCode ≠ 0 → r.after = r.before

theorem makesClaim_record
    {isThere : String → Bool}
    {words : List String}
    {i : Invocation}
    {parameters : Parameters}
    {name ns : String}
    (hread : Invocation.read words = .ok i)
    (hparameters : Parameters.resolve isThere i.kubeConfig = .ok parameters)
    (hcommand : i.command = .createClaim name ns)
    (s : σ) :
    MakesClaim view name ns (Run.record isThere server words s) := by
  have hexit := exitCode_record_eq_zero_iff server hread hparameters s
  have hafter := after_record server hread hparameters s
  rw [hcommand] at hexit hafter
  refine ⟨hexit.trans (outcome_createCommand h name ns s), fun hcode => ?_, fun hcode => ?_⟩
  · rw [hafter]
    exact ⟨claims_createCommand h (hexit.mp hcode),
      agreeExceptClaims_createCommand h.toMakesClaims name ns s⟩
  · refine after_eq_of_exitCode (fun other hother => ?_) isThere s hcode
    cases hread.symm.trans hother
    rw [hcommand]
    exact allOrNothing_createCommand h.toMakesClaims name ns

end Steps

/-- If claims have different names at first, they have different names after every run of a
sequence, and those that were not there at first have passed the check, so they are proper.  From
whatever state, a run that is to make a claim succeeds exactly if the claim passes the check and its
name is free; then it adds the claim, and otherwise it changes nothing.  A run is to make a claim
whenever its words give a name that may stand alone, and a namespace; so it is for every claim that
is proper. -/
theorem claims_alongHistory
    (h : server.KeepsClaims view)
    (isThere : String → Bool)
    (lines : List (List String))
    (s : σ)
    (hs : ((view.claims s).map Cluster.Claim.name).Nodup) :
    let records := Run.history isThere server lines s
    Run.sequence isThere server lines s =
        (records.map Record.run, (records.map Record.after).getLastD s) ∧
      (∀ r ∈ records,
        ((view.claims r.after).map Cluster.Claim.name).Nodup ∧
          ∀ c ∈ view.claims r.after, c ∉ view.claims s →
            check c.name c.ns = .ok () ∧ ProperName c.name ∧ ProperNamespace c.ns) ∧
      (∀ words i parameters name ns, Invocation.read words = .ok i →
        Parameters.resolve isThere i.kubeConfig = .ok parameters →
        i.command = .createClaim name ns →
        ∀ s', MakesClaim view name ns (Run.record isThere server words s')) ∧
      (∀ name ns words, StandsAlone name → Choice.Spelled ⟨"namespace", some ns⟩ words →
        ∀ s', MakesClaim view name ns
          (Run.record isThere server ("cdc" :: "create" :: name :: words) s')) ∧
      ∀ name ns, ProperName name → ProperNamespace ns →
        Invocation.read ["cdc", "create", name, "--namespace", ns] =
          .ok ⟨["cdc", "create"], 0, false, none, .createClaim name ns⟩ := by
  refine ⟨Run.sequence_eq_history isThere server lines s, fun r hr => ⟨?_, ?_⟩, ?_, ?_, ?_⟩
  · exact nodup_of_mem_history h isThere hs hr
  · intro c hc hnew
    rcases checked_of_mem_history h isThere hr c hc with hfirst | hcheck
    · exact absurd hfirst hnew
    · exact ⟨hcheck, (check_eq_ok_iff c.name c.ns).mp hcheck⟩
  · intro words i parameters name ns hread hparameters hcommand s'
    exact makesClaim_record h hread hparameters hcommand s'
  · intro name ns words hname hns s'
    exact makesClaim_record h (Invocation.read_createClaim hname hns) rfl rfl s'
  · intro name ns hname hns
    exact read_properClaim hname hns

/-- A name is claimed, one that is claimed and one that is not proper are tried, a claim is deleted
by a text that is not its name, and the deletion of an empty name is tried. -/
theorem claims_alongHistory_freshCluster :
    let lines := [
      ["cdc", "create", "example.org", "--namespace", "default"],
      ["cdc", "create", "example.com", "--namespace", "other"],
      ["cdc", "create", "Example.net", "--namespace", "default"],
      ["cdc", "delete", "example.com#old"],
      ["cdc", "delete", ""],
      ["cdc", "list"]]
    let records := Run.history (fun _ => false) Versioned.server lines Autoscaling.freshCluster
    Versioned.server.KeepsClaims Versioned.view ∧
      ((Versioned.view.claims Autoscaling.freshCluster).map Cluster.Claim.name).Nodup ∧
      records.map (fun r => r.run.exitCode) = [0, 1, 1, 0, 1, 0] ∧
      (∀ r ∈ records, ((Versioned.view.claims r.after).map Cluster.Claim.name).Nodup) ∧
      MakesClaim Versioned.view "example.org" "default"
        (Run.record (fun _ => false) Versioned.server
          ["cdc", "create", "example.org", "--namespace", "default"] Autoscaling.freshCluster) := by
  intro lines records
  have hdistinct :
      ((Versioned.view.claims Autoscaling.freshCluster).map Cluster.Claim.name).Nodup := by
    decide
  obtain ⟨_, hrecords, _, hmakes, _⟩ := claims_alongHistory Versioned.keepsClaims (fun _ => false)
    lines Autoscaling.freshCluster hdistinct
  refine ⟨Versioned.keepsClaims, hdistinct, ?_, fun r hr => (hrecords r hr).1, ?_⟩
  · decide +kernel
  · exact hmakes "example.org" "default" _ (by decide) (.separate (by decide))
      Autoscaling.freshCluster

end Claim
end ServingAdmin
