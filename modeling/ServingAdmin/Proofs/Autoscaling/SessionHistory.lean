import Mathlib.Data.List.Induction
import ServingAdmin.Autoscaling.Session
import ServingAdmin.Proofs.Autoscaling.Accepted

/-!
# Only accepted values are written by making changes

A session can collect updates, check them, make the changes of an earlier check as often as it
likes, and edit the data by hand in between.  Whatever its steps are, the changes that it holds come
from a check that succeeded: they are values that were accepted for fields, out of the update that
was checked.  So a value that making changes brings into the data is one of these.  Apart from that
a key has what was written to it last, and a check that fails leaves no trace.
-/

namespace ServingAdmin
namespace Autoscaling

/-- An update backs a value under a key if that is stored for one of its values, or if one of its
flags asks for it. -/
def Update.Backs
    (u : Update)
    (key value : String) :
    Prop :=
  (∃ raw, (key, raw) ∈ u.values ∧ accept key raw = .ok value) ∨
    key = scaleToZeroKey ∧
      (u.enable = true ∧ value = booleanText true ∨ u.disable = true ∧ value = booleanText false)

/-- Changes that are not empty, have keys of fields only, and are backed by an update. -/
structure Changes.BackedBy
    (changes : Changes)
    (u : Update) :
    Prop where
  nonempty :
    ∃ key value, changes.values.get? key = some value
  known :
    ∀ key value, changes.values.get? key = some value → ∃ f ∈ fields, f.name = key
  backed :
    ∀ key value, changes.values.get? key = some value → u.Backs key value

section Checking

theorem Update.Backs.known
    {u : Update}
    {key value : String}
    (h : u.Backs key value) :
    ∃ f ∈ fields, f.name = key := by
  rcases h with ⟨raw, _, haccept⟩ | ⟨rfl, _⟩
  · obtain ⟨f, hf, _⟩ := accept_eq_ok_iff.mp haccept
    exact ⟨f, Field.of_named? hf⟩
  · exact ⟨_, List.mem_cons_self, rfl⟩

/-- What the flags ask for is backed. -/
theorem Update.backs_of_get?_flagChanges
    {u : Update}
    {key value : String}
    (h : u.flagChanges.get? key = some value) :
    u.Backs key value := by
  by_cases hkey : key = scaleToZeroKey
  · subst hkey
    rw [get?_flagChanges_scaleToZeroKey] at h
    refine Or.inr ⟨rfl, ?_⟩
    cases hdisable : u.disable with
    | true =>
        simp only [hdisable, if_true, Option.some.injEq] at h
        exact Or.inr ⟨rfl, h.symm⟩
    | false =>
        cases henable : u.enable with
        | true =>
            simp only [hdisable, henable, if_true, Bool.false_eq_true, if_false,
              Option.some.injEq] at h
            exact Or.inl ⟨rfl, h.symm⟩
        | false => simp [hdisable, henable] at h
  · rw [get?_flagChanges_of_ne hkey] at h
    cases h

theorem Update.backs_of_check
    {u : Update}
    {changes : Changes}
    {key value : String}
    (hcheck : u.check = .ok changes)
    (hvalue : changes.values.get? key = some value) :
    u.Backs key value := by
  cases hlast : u.lastGiven? key with
  | some raw =>
      obtain ⟨stored, haccept, hstored⟩ := get?_of_check_of_given hcheck hlast
      obtain rfl := Option.some.inj (hstored.symm.trans hvalue)
      exact Or.inl ⟨raw, mem_values_of_lastGiven? hlast, haccept⟩
  | none =>
      rw [get?_of_check_of_not_given hcheck hlast] at hvalue
      exact backs_of_get?_flagChanges hvalue

/-- An update that asks for anything has changes to make when it is accepted. -/
theorem Update.exists_change_of_check
    {u : Update}
    {changes : Changes}
    (hcheck : u.check = .ok changes) :
    ∃ key value, changes.values.get? key = some value := by
  have hempty := (check_eq_ok_iff.mp hcheck).1
  cases hvalues : u.values with
  | nil =>
      -- without values it is the flags that ask for something
      have hlast : u.lastGiven? scaleToZeroKey = none :=
        lastGiven?_eq_none (by simp [hvalues])
      have hflags := get?_of_check_of_not_given hcheck hlast
      rw [get?_flagChanges_scaleToZeroKey] at hflags
      cases hdisable : u.disable with
      | true => exact ⟨_, _, by simpa [hdisable] using hflags⟩
      | false =>
          have henable : u.enable = true := by
            simpa [isEmpty, hvalues, hdisable] using hempty
          exact ⟨_, _, by simpa [hdisable, henable] using hflags⟩
  | cons e _ =>
      cases hlast : u.lastGiven? e.1 with
      | none =>
          have hnot := List.lookup_eq_none_iff.mp hlast e (by simp [hvalues])
          simp at hnot
      | some raw =>
          obtain ⟨stored, _, hstored⟩ := get?_of_check_of_given hcheck hlast
          exact ⟨e.1, stored, hstored⟩

theorem Changes.backedBy_of_check
    {u : Update}
    {changes : Changes}
    (hcheck : u.check = .ok changes) :
    changes.BackedBy u where
  nonempty := u.exists_change_of_check hcheck
  known _ _ hvalue := (Update.backs_of_check hcheck hvalue).known
  backed _ _ := Update.backs_of_check hcheck

end Checking

namespace Session

/-- What a step writes under a key, if it writes there: a value, or that there is none. -/
def write?
    (s : Session)
    (key : String) :
    Step → Option (Option String)
  | .put k value => if k = key then some (some value) else none
  | .delete k => if k = key then some none else none
  | .apply => (s.accepted.bind fun changes => changes.values.get? key).map some
  | _ => none

/-- What several steps write under a key, one after the other. -/
def written
    (s : Session)
    (key : String) :
    List Step → List (Option String)
  | [] => []
  | step :: rest => (s.write? key step).toList ++ (s.step step).written key rest

theorem steps_append
    (s : Session)
    (l l' : List Step) :
    s.steps (l ++ l') = (s.steps l).steps l' :=
  List.foldl_append

/-- A key has what a step writes there, or keeps what it has. -/
theorem get?_step
    (s : Session)
    (step : Step)
    (key : String) :
    (s.step step).data.get? key = (s.write? key step).getD (s.data.get? key) := by
  cases step with
  | put k value => by_cases h : k = key <;> simp [Session.step, write?, h]
  | delete k => by_cases h : k = key <;> simp [Session.step, write?, h]
  | apply =>
      cases haccepted : s.accepted with
      | none => simp [Session.step, write?, haccepted]
      | some changes =>
          simp only [Session.step, write?, haccepted, Changes.get?_applyTo, Option.bind_some]
          cases changes.values.get? key <;> rfl
  | check =>
      simp only [Session.step, write?]
      split <;> rfl
  | set field raw => rfl
  | enable => rfl
  | disable => rfl
  | reset => rfl

/-- After several steps a key has what was written there last. -/
theorem get?_steps
    (s : Session)
    (l : List Step)
    (key : String) :
    (s.steps l).data.get? key = (s.written key l).getLast?.getD (s.data.get? key) := by
  induction l generalizing s with
  | nil => rfl
  | cons step rest ih =>
      change ((s.step step).steps rest).data.get? key = _
      rw [ih, get?_step, written, List.getLast?_append]
      cases s.write? key step with
      | none => simp
      | some _ => cases (written (s.step step) key rest).getLast? <;> simp

/-- A step other than a check that succeeds holds the changes that were held. -/
theorem accepted_step
    {s : Session}
    {step : Step}
    {changes : Changes}
    (h : (s.step step).accepted = some changes) :
    s.accepted = some changes ∨ step = .check ∧ s.update.check = .ok changes := by
  cases step with
  | check =>
      simp only [Session.step] at h
      split at h
      · rename_i hcheck
        cases h
        exact Or.inr ⟨rfl, hcheck⟩
      · exact Or.inl h
  | apply =>
      simp only [Session.step] at h
      split at h
      · exact Or.inl h
      · exact Or.inl h
  | _ => exact Or.inl h

/-- Changes that are held after several steps were held before them or come from one of the checks
among them. -/
theorem accepted_steps
    {s : Session}
    {l : List Step}
    {changes : Changes}
    (h : (s.steps l).accepted = some changes) :
    s.accepted = some changes ∨
      ∃ before after, l = before ++ .check :: after ∧
        (s.steps before).update.check = .ok changes := by
  induction l using List.reverseRecOn with
  | nil => exact Or.inl h
  | append_singleton l step ih =>
      rw [steps_append] at h
      rcases accepted_step h with hheld | ⟨rfl, hcheck⟩
      · rcases ih hheld with hstart | ⟨before, after, rfl, hcheck⟩
        · exact Or.inl hstart
        · exact Or.inr ⟨before, after ++ [step], by simp, hcheck⟩
      · exact Or.inr ⟨l, [], rfl, hcheck⟩

/-- Where a session began without changes, those that it holds come from a check that succeeded. -/
theorem exists_check_of_accepted
    {data : KeyMap String}
    {l : List Step}
    {changes : Changes}
    (h : ((start data).steps l).accepted = some changes) :
    ∃ before after, l = before ++ .check :: after ∧
      ((start data).steps before).update.check = .ok changes := by
  rcases accepted_steps h with hstart | hcheck
  · cases hstart
  · exact hcheck

/-- A key that is altered by making changes gets a value from the changes that are held. -/
theorem exists_of_apply_alters
    {s : Session}
    {key : String}
    (h : (s.step .apply).data.get? key ≠ s.data.get? key) :
    ∃ changes value, s.accepted = some changes ∧ changes.values.get? key = some value ∧
      (s.step .apply).data.get? key = some value := by
  have hstep := s.get?_step .apply key
  cases hwrite : s.write? key .apply with
  | none =>
      rw [hwrite] at hstep
      exact absurd hstep h
  | some written =>
      rw [hwrite] at hstep
      obtain ⟨value, hvalue, rfl⟩ := Option.map_eq_some_iff.mp hwrite
      obtain ⟨changes, haccepted, hget⟩ := Option.bind_eq_some_iff.mp hvalue
      exact ⟨changes, value, haccepted, hget, hstep⟩

/-- A check that fails leaves the session as it is. -/
theorem step_check_of_error
    {s : Session}
    {failure : Failure}
    (h : s.update.check = .error failure) :
    s.step .check = s := by
  simp only [Session.step, h]

/-- An account of the steps of a session that began with some data. -/
structure Account
    (data : KeyMap String)
    (l : List Step) :
    Prop where
  /-- Changes that are held come from an earlier check, by which they are backed. -/
  held :
    ∀ changes, ((start data).steps l).accepted = some changes →
      ∃ before after, l = before ++ .check :: after ∧
        ((start data).steps before).update.check = .ok changes ∧
        changes.BackedBy ((start data).steps before).update
  /-- A key that was altered by making changes, and still has what it got then, is that of a field,
  with a value that an earlier check accepted. -/
  altered :
    ∀ key before after, l = before ++ .apply :: after →
      (((start data).steps before).step .apply).data.get? key ≠
          ((start data).steps before).data.get? key →
        ((start data).steps l).data.get? key =
            (((start data).steps before).step .apply).data.get? key →
          ∃ value checked rest changes,
            ((start data).steps l).data.get? key = some value ∧
            (∃ f ∈ fields, f.name = key) ∧
            before = checked ++ .check :: rest ∧
            ((start data).steps checked).update.check = .ok changes ∧
            ((start data).steps checked).update.Backs key value
  /-- A key has what was written to it last by hand or by making changes that have it, and without
  that what it had. -/
  last :
    ∀ key, ((start data).steps l).data.get? key =
      ((start data).written key l).getLast?.getD (data.get? key)
  /-- Everything is as it would be without the checks that fail. -/
  failed :
    ∀ before after failure, l = before ++ .check :: after →
      ((start data).steps before).update.check = .error failure →
        (start data).steps l = (start data).steps (before ++ after)

end Session

/-- Whatever the steps of a session are, only accepted values are written by making changes. -/
theorem session_account
    (data : KeyMap String)
    (l : List Step) :
    Session.Account data l where
  held changes haccepted := by
    obtain ⟨before, after, hl, hcheck⟩ := Session.exists_check_of_accepted haccepted
    exact ⟨before, after, hl, hcheck, Changes.backedBy_of_check hcheck⟩
  altered key before after hl halters hkept := by
    obtain ⟨changes, value, haccepted, hvalue, hget⟩ := Session.exists_of_apply_alters halters
    obtain ⟨checked, rest, hbefore, hcheck⟩ := Session.exists_check_of_accepted haccepted
    have hbacked := Update.backs_of_check hcheck hvalue
    exact ⟨value, checked, rest, changes, hkept.trans hget, hbacked.known, hbefore, hcheck, hbacked⟩
  last key := Session.get?_steps (.start data) l key
  failed before after failure hl hcheck := by
    subst hl
    have hstep := Session.step_check_of_error hcheck
    rw [Session.steps_append, Session.steps_append]
    change (((Session.start data).steps before).step .check).steps after = _
    rw [hstep]

/-- A session in which a field that is not known is not accepted, and in which the changes that were
accepted are made after their update was dropped and their key was edited. -/
def staleSession : List Step :=
  [.set "unknown-window" "2m", .check, .reset, .set "stable-window" "2m", .check, .reset,
    .put "stable-window" "soon", .apply]

/-- The window that stands in the data in the end was accepted for an update that is gone. -/
theorem session_account_staleSession :
    ∃ value checked,
      ((Session.start .empty).steps staleSession).update = .empty ∧
      ((Session.start .empty).steps staleSession).data.get? "stable-window" = some value ∧
      ((Session.start .empty).steps checked).update.Backs "stable-window" value := by
  have halters :
      (((Session.start .empty).steps (staleSession.take 7)).step .apply).data.get? "stable-window" ≠
        ((Session.start .empty).steps (staleSession.take 7)).data.get? "stable-window" := by
    decide +kernel
  obtain ⟨value, checked, _, _, hvalue, _, _, _, hbacked⟩ :=
    (session_account .empty staleSession).altered "stable-window" (staleSession.take 7) [] rfl
      halters rfl
  exact ⟨value, checked, by decide +kernel, hvalue, hbacked⟩

end Autoscaling
end ServingAdmin
