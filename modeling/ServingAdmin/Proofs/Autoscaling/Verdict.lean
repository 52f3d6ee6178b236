import Mathlib.Tactic.ByContra
import ServingAdmin.Proofs.Autoscaling.Accepted

/-!
# The verdict on an update

A check of an update comes to one of four verdicts, the first of these that applies: that nothing is
asked for, that the flags contradict each other, that a value is not accepted, and the changes to
make.  Of several values that are not accepted the first one decides, even if a later value of its
field would do.  Of several values of one field that are accepted the last one is stored, and a
value that is given for scale-to-zero goes over the flags.

The verdict says all that a check can tell of an update: there is only one (`check_eq_iff_verdict`).
-/

namespace ServingAdmin
namespace Autoscaling

section Rejection

variable {key raw : String} {failure : Failure}

/-- What is wrong with a value that is not accepted: its field is not known or rejects it, or it is
no duration. -/
inductive BadValue (key raw : String) : Problem → Prop
  | unknownField :
      BadValue key raw (.unknownField key)
  | rejectedField
      (reason : Rejection) :
      BadValue key raw (.rejectedField key reason)
  | badDuration
      (fault : Duration.Fault) :
      BadValue key raw (.badDuration fault raw)

theorem Field.badValue_of_reject
    {f : Field}
    {reason : Rejection}
    (h : f.reject reason = (.error failure : Except Failure String)) :
    BadValue f.name raw failure.problem := by
  cases h
  exact .rejectedField reason

theorem Field.badValue_of_readUnits
    {f : Field}
    (h : f.readUnits raw = .error failure) :
    BadValue f.name raw failure.problem := by
  rw [problem_of_readUnits h]
  exact .rejectedField _

theorem badValue_of_readDuration
    (h : readDuration raw = .error failure) :
    BadValue key raw failure.problem := by
  obtain ⟨fault, _, rfl⟩ := mapError_eq_error_iff.mp h
  exact .badDuration fault

/-- Whatever is wrong with a value, its field is named or the text is repeated. -/
theorem Field.badValue_of_accept
    {f : Field}
    (h : f.accept raw = .error failure) :
    BadValue f.name raw failure.problem := by
  have hlast : ∀ {p : Prop} [Decidable p] {reason : Rejection} {stored : String},
      (if p then f.reject reason else .ok stored) = .error failure →
        BadValue f.name raw failure.problem := by
    intro p _ reason stored h
    split at h
    · exact badValue_of_reject h
    · cases h
  unfold accept at h
  split at h
  · split at h
    · cases h
    · exact badValue_of_reject h
  · rcases bind_eq_error_iff.mp h with h | ⟨d, _, h⟩
    · exact badValue_of_readDuration h
    · split at h
      · exact badValue_of_reject h
      · split at h
        · cases h
        · exact badValue_of_reject h
  · rcases bind_eq_error_iff.mp h with h | ⟨d, _, h⟩
    · exact badValue_of_readDuration h
    · exact hlast h
  · rcases bind_eq_error_iff.mp h with h | ⟨d, _, h⟩
    · exact badValue_of_readDuration h
    · exact hlast h
  · rcases bind_eq_error_iff.mp h with h | ⟨units, _, h⟩
    · exact badValue_of_readUnits h
    · exact hlast h
  · rcases bind_eq_error_iff.mp h with h | ⟨units, _, h⟩
    · exact badValue_of_readUnits h
    · split at h
      · cases h
      · exact badValue_of_reject h
  · rcases bind_eq_error_iff.mp h with h | ⟨units, _, h⟩
    · exact badValue_of_readUnits h
    · exact hlast h
  · cases h

theorem badValue_of_accept
    (h : accept key raw = .error failure) :
    BadValue key raw failure.problem := by
  rw [accept] at h
  split at h
  · rename_i f hf
    obtain ⟨_, rfl⟩ := Field.of_named? hf
    exact Field.badValue_of_accept h
  · cases h
    exact .unknownField

end Rejection

namespace Update

/-- Nothing is asked for. -/
def AsksNothing
    (u : Update) :
    Prop :=
  u.enable = false ∧ u.disable = false ∧ u.values = []

/-- Scale-to-zero is to be switched both on and off. -/
def Contradicts
    (u : Update) :
    Prop :=
  u.enable = true ∧ u.disable = true

/-- A value is not accepted, and it is the first such value. -/
def FirstRejected
    (u : Update)
    (failure : Failure) :
    Prop :=
  ∃ before key raw after, u.values = before ++ (key, raw) :: after ∧
    (∀ e ∈ before, ∃ stored, accept e.1 e.2 = .ok stored) ∧ accept key raw = .error failure

/-- The changes that an update asks for, if all its values are accepted. -/
structure Wants
    (u : Update)
    (changes : Changes) :
    Prop where
  keys :
    ∀ key, (∃ value, changes.values.get? key = some value) ↔
      (∃ raw, (key, raw) ∈ u.values) ∨
        key = scaleToZeroKey ∧ (u.enable = true ∨ u.disable = true)
  /-- The last value of a field is stored. -/
  given :
    ∀ before key raw after, u.values = before ++ (key, raw) :: after →
      (∀ e ∈ after, e.1 ≠ key) →
        ∃ stored, accept key raw = .ok stored ∧ changes.values.get? key = some stored
  /-- The flags count if no value goes over them. -/
  flags :
    (∀ e ∈ u.values, e.1 ≠ scaleToZeroKey) →
      changes.values.get? scaleToZeroKey =
        if u.disable then some "false" else if u.enable then some "true" else none

/-- What a check of an update comes to. -/
structure Verdict
    (u : Update)
    (result : Except Failure Changes) :
    Prop where
  missing :
    result = .error (.of (.missingFlags "autoscaling update")) ↔ u.AsksNothing
  conflicting :
    result = .error (.of (.conflictingFlags "scale-to-zero" "no-scale-to-zero")) ↔ u.Contradicts
  rejected :
    ¬ u.AsksNothing → ¬ u.Contradicts →
      ∀ failure, result = .error failure ↔ u.FirstRejected failure
  accepted :
    (∃ changes, result = .ok changes) ↔
      ¬ u.AsksNothing ∧ ¬ u.Contradicts ∧ ∀ e ∈ u.values, ∃ stored, accept e.1 e.2 = .ok stored
  wanted :
    ∀ changes, result = .ok changes → u.Wants changes

section Flags

variable {u : Update}

theorem isEmpty_iff :
    u.isEmpty = true ↔ u.AsksNothing := by
  simp [isEmpty, AsksNothing, and_assoc]

theorem contradicts_iff :
    (u.enable && u.disable) = true ↔ u.Contradicts := by
  simp [Contradicts]

theorem AsksNothing.not_contradicts
    (h : u.AsksNothing) :
    ¬ u.Contradicts := by
  rintro ⟨henable, _⟩
  cases h.1.symm.trans henable

end Flags

section Values

/-- To accept values one by one is to check them in their order. -/
theorem checkOf_acceptAll
    (m : KeyMap String)
    (l : List (String × String)) :
    checkOf (acceptAll m l) = l.forM fun e => checkOf (accept e.1 e.2) := by
  induction l generalizing m with
  | nil => rfl
  | cons e rest ih =>
      obtain ⟨field, raw⟩ := e
      rw [acceptAll, forM_cons, checkOf_bind_const]
      cases accept field raw with
      | error failure => rfl
      | ok stored => exact ih _

theorem acceptAll_eq_error_iff
    {u : Update}
    {m : KeyMap String}
    {failure : Failure} :
    acceptAll m u.values = .error failure ↔ u.FirstRejected failure := by
  rw [← checkOf_eq_error_iff, checkOf_acceptAll, forM_eq_error_iff]
  simp only [checkOf_eq_ok_iff, checkOf_eq_error_iff, Prod.exists, FirstRejected]

theorem exists_acceptAll_iff
    {m : KeyMap String}
    {l : List (String × String)} :
    (∃ m', acceptAll m l = .ok m') ↔ ∀ e ∈ l, ∃ stored, accept e.1 e.2 = .ok stored := by
  rw [← checkOf_eq_ok_iff, checkOf_acceptAll, forM_eq_ok_iff]
  simp only [checkOf_eq_ok_iff]

/-- The value that is given last for a key has none for the key behind it. -/
theorem lastGiven?_eq_some_iff
    {u : Update}
    {key raw : String} :
    u.lastGiven? key = some raw ↔
      ∃ before after, u.values = before ++ (key, raw) :: after ∧ ∀ e ∈ after, e.1 ≠ key := by
  rw [lastGiven?, List.lookup_eq_some_iff]
  constructor
  · rintro ⟨behind, front, hvalues, hbehind⟩
    refine ⟨front.reverse, behind.reverse, ?_, fun e he => ?_⟩
    · rw [← List.reverse_reverse u.values, hvalues]
      simp
    · rintro rfl
      have hne := hbehind e (List.mem_reverse.mp he)
      simp at hne
  · rintro ⟨before, after, hvalues, hafter⟩
    refine ⟨after.reverse, before.reverse, ?_, fun e he => ?_⟩
    · rw [hvalues]
      simp
    · simpa using Ne.symm (hafter e (List.mem_reverse.mp he))

theorem lastGiven?_eq_none_iff
    {u : Update}
    {key : String} :
    u.lastGiven? key = none ↔ ∀ e ∈ u.values, e.1 ≠ key := by
  refine ⟨fun h e he hkey => ?_, lastGiven?_eq_none⟩
  have hnot := List.lookup_eq_none_iff.mp h e (List.mem_reverse.mpr he)
  simp [hkey] at hnot

end Values

section Checking

variable {u : Update} {changes : Changes}

/-- The changes that come out of a check are those that the update asks for. -/
theorem wants_of_check
    (hcheck : u.check = .ok changes) :
    u.Wants changes where
  keys key := by
    cases hlast : u.lastGiven? key with
    | some raw =>
        obtain ⟨stored, _, hstored⟩ := get?_of_check_of_given hcheck hlast
        have hgiven : ∃ raw, (key, raw) ∈ u.values := ⟨raw, mem_values_of_lastGiven? hlast⟩
        exact ⟨fun _ => Or.inl hgiven, fun _ => ⟨stored, hstored⟩⟩
    | none =>
        have hnone : ¬ ∃ raw, (key, raw) ∈ u.values := by
          rintro ⟨raw, hraw⟩
          exact lastGiven?_eq_none_iff.mp hlast _ hraw rfl
        rw [get?_of_check_of_not_given hcheck hlast, or_iff_right hnone]
        by_cases hkey : key = scaleToZeroKey
        · subst hkey
          rw [get?_flagChanges_scaleToZeroKey]
          cases u.enable <;> cases u.disable <;> simp
        · simp [get?_flagChanges_of_ne hkey, hkey]
  given before key raw after hvalues hafter :=
    get?_of_check_of_given hcheck (lastGiven?_eq_some_iff.mpr ⟨before, after, hvalues, hafter⟩)
  flags hnone := by
    rw [get?_of_check_of_not_given hcheck (lastGiven?_eq_none hnone),
      get?_flagChanges_scaleToZeroKey]
    rfl

/-- An update asks for one set of changes only. -/
theorem Wants.unique
    {changes' : Changes}
    (h : u.Wants changes)
    (h' : u.Wants changes') :
    changes = changes' := by
  suffices hsame : ∀ key, changes.values.get? key = changes'.values.get? key by
    cases changes
    cases changes'
    exact congrArg Changes.mk (KeyMap.ext_get? hsame)
  intro key
  cases hlast : u.lastGiven? key with
  | some raw =>
      obtain ⟨before, after, hvalues, hafter⟩ := lastGiven?_eq_some_iff.mp hlast
      obtain ⟨stored, haccept, hstored⟩ := h.given before key raw after hvalues hafter
      obtain ⟨stored', haccept', hstored'⟩ := h'.given before key raw after hvalues hafter
      rw [hstored, hstored', Except.ok.inj (haccept.symm.trans haccept')]
  | none =>
      have hnone := lastGiven?_eq_none_iff.mp hlast
      by_cases hkey : key = scaleToZeroKey
      · subst hkey
        rw [h.flags hnone, h'.flags hnone]
      · have habsent : ¬ ((∃ raw, (key, raw) ∈ u.values) ∨
            key = scaleToZeroKey ∧ (u.enable = true ∨ u.disable = true)) := by
          rintro (⟨raw, hraw⟩ | ⟨heq, _⟩)
          · exact hnone _ hraw rfl
          · exact hkey heq
        have hget := (h.keys key).not.mpr habsent
        have hget' := (h'.keys key).not.mpr habsent
        rw [← Option.ne_none_iff_exists', not_not] at hget hget'
        rw [hget, hget']

theorem check_of_asksNothing
    (h : u.AsksNothing) :
    u.check = .error (.of (.missingFlags "autoscaling update")) :=
  if_pos (isEmpty_iff.mpr h)

theorem check_of_contradicts
    (h : u.Contradicts) :
    u.check = .error (.of (.conflictingFlags "scale-to-zero" "no-scale-to-zero")) := by
  have hsome : ¬ u.isEmpty = true := fun hempty =>
    (isEmpty_iff.mp hempty).not_contradicts h
  rw [check, if_neg hsome, if_pos (contradicts_iff.mpr h)]

/-- Past the flags the values decide. -/
theorem check_of_values
    (hsome : ¬ u.AsksNothing)
    (hagree : ¬ u.Contradicts) :
    u.check = (acceptAll u.flagChanges u.values).map Changes.mk := by
  rw [check, if_neg (isEmpty_iff.not.mpr hsome), if_neg (contradicts_iff.not.mpr hagree)]

theorem check_eq_error_iff
    (hsome : ¬ u.AsksNothing)
    (hagree : ¬ u.Contradicts)
    {failure : Failure} :
    u.check = .error failure ↔ u.FirstRejected failure := by
  rw [check_of_values hsome hagree, ← acceptAll_eq_error_iff (m := u.flagChanges)]
  cases acceptAll u.flagChanges u.values with
  | error _ => simp [Except.map]
  | ok _ => simp [Except.map]

theorem exists_check_iff
    (hsome : ¬ u.AsksNothing)
    (hagree : ¬ u.Contradicts) :
    (∃ changes, u.check = .ok changes) ↔
      ∀ e ∈ u.values, ∃ stored, accept e.1 e.2 = .ok stored := by
  rw [check_of_values hsome hagree, ← exists_acceptAll_iff (m := u.flagChanges)]
  cases acceptAll u.flagChanges u.values with
  | error _ => simp [Except.map]
  | ok _ => simp [Except.map]

/-- No value is rejected with what is said of flags. -/
theorem FirstRejected.badValue
    {failure : Failure}
    (h : u.FirstRejected failure) :
    ∃ key raw, BadValue key raw failure.problem := by
  obtain ⟨_, key, raw, _, _, _, haccept⟩ := h
  exact ⟨key, raw, badValue_of_accept haccept⟩

theorem verdict_check
    (u : Update) :
    u.Verdict u.check where
  missing := by
    refine ⟨fun h => ?_, check_of_asksNothing⟩
    by_contra hsome
    by_cases hboth : u.Contradicts
    · rw [check_of_contradicts hboth] at h
      cases h
    · obtain ⟨_, _, hbad⟩ := ((check_eq_error_iff hsome hboth).mp h).badValue
      cases hbad
  conflicting := by
    refine ⟨fun h => ?_, check_of_contradicts⟩
    by_contra hboth
    by_cases hempty : u.AsksNothing
    · rw [check_of_asksNothing hempty] at h
      cases h
    · obtain ⟨_, _, hbad⟩ := ((check_eq_error_iff hempty hboth).mp h).badValue
      cases hbad
  rejected hsome hagree _ := check_eq_error_iff hsome hagree
  accepted := by
    constructor
    · rintro ⟨changes, h⟩
      have hsome : ¬ u.AsksNothing := fun hempty => by
        cases (check_of_asksNothing hempty).symm.trans h
      have hagree : ¬ u.Contradicts := fun hboth => by
        cases (check_of_contradicts hboth).symm.trans h
      exact ⟨hsome, hagree, (exists_check_iff hsome hagree).mp ⟨changes, h⟩⟩
    · rintro ⟨hsome, hagree, hvalues⟩
      exact (exists_check_iff hsome hagree).mpr hvalues
  wanted _ := wants_of_check

/-- There is one verdict on an update. -/
theorem Verdict.unique
    {result result' : Except Failure Changes}
    (h : u.Verdict result)
    (h' : u.Verdict result') :
    result = result' := by
  by_cases hempty : u.AsksNothing
  · rw [h.missing.mpr hempty, h'.missing.mpr hempty]
  · by_cases hboth : u.Contradicts
    · rw [h.conflicting.mpr hboth, h'.conflicting.mpr hboth]
    · cases result with
      | error failure =>
          have hfirst := (h.rejected hempty hboth failure).mp rfl
          exact ((h'.rejected hempty hboth failure).mpr hfirst).symm
      | ok changes =>
          obtain ⟨changes', hok⟩ := h'.accepted.mpr (h.accepted.mp ⟨changes, rfl⟩)
          rw [hok, (h.wanted changes rfl).unique (h'.wanted changes' hok)]

end Checking

end Update

/-- A check of an update comes to the verdict on it and to nothing else. -/
theorem check_eq_iff_verdict
    (u : Update)
    (result : Except Failure Changes) :
    u.check = result ↔ u.Verdict result := by
  constructor
  · rintro rfl
    exact u.verdict_check
  · exact u.verdict_check.unique

end Autoscaling
end ServingAdmin
