import Mathlib.Logic.Relation
import ServingAdmin.Proofs.Autoscaling.SettingsRead
import ServingAdmin.Proofs.Binary64.Grammar

/-!
# Settings are read from the values that hold

Reading the settings asks the data for nothing but the value that holds for each field.  So edits
that leave these values alone leave what is read alone, be it settings or a failure
(`Settings.ReadFromHeld.edits`).  And the settings can be read exactly if each of the values is
written in the form of its setting, where the first that is not makes the failure.
-/

namespace ServingAdmin
namespace Autoscaling

section Edits

/-- Changes to data that do not change what holds for a field. -/
inductive Edit (data : KeyMap String) : KeyMap String → Prop
  | fillIn
      {f : Field} :
      f ∈ fields →
        data.get? f.name = none →
          Edit data (data.insert f.name f.fallback)
  | leaveOut
      {f : Field} :
      f ∈ fields →
        data.get? f.name = some f.fallback →
          Edit data (data.erase f.name)
  | pad
      {key raw : String}
      {front back : List Char} :
      data.get? key = some raw →
        Text.Blank front →
          Text.Blank back →
            Edit data (data.insert key (String.ofList (front ++ raw.toList ++ back)))
  | strip
      {key raw : String} :
      data.get? key = some raw →
        Edit data (data.insert key (Text.trimmed raw))
  | addUnknown
      {key : String}
      (raw : String) :
      (∀ f ∈ fields, f.name ≠ key) →
        Edit data (data.insert key raw)
  | removeUnknown
      {key : String} :
      (∀ f ∈ fields, f.name ≠ key) →
        Edit data (data.erase key)

/-- What holds for every field is the same. -/
def SameHeld
    (data data' : KeyMap String) :
    Prop :=
  ∀ f ∈ fields, effective data' f.name = effective data f.name

/-- No two fields have one name, and no fallback has blanks around it. -/
theorem fallback_of_mem
    {f : Field}
    (hf : f ∈ fields) :
    fallback f.name = f.fallback ∧ Text.trimmed f.fallback = f.fallback := by
  have hall : ∀ f ∈ fields,
      fallback f.name = f.fallback ∧ Text.trimmed f.fallback = f.fallback := by
    decide
  exact hall f hf

/-- A value may be replaced by one that is the same but for the blanks around it. -/
theorem effective_insert_of_trimmed
    {data : KeyMap String}
    {key raw raw' : String}
    (h : data.get? key = some raw)
    (htrimmed : Text.trimmed raw' = Text.trimmed raw)
    (key' : String) :
    effective (data.insert key raw') key' = effective data key' := by
  by_cases hkey : key = key'
  · subst hkey
    have hnew : (data.insert key raw').get? key = some raw' := by
      simp
    rw [effective_of_some h, effective_of_some hnew, htrimmed]
  · exact effective_congr (by simp [hkey])

theorem Edit.sameHeld
    {data data' : KeyMap String}
    (h : Edit data data') :
    SameHeld data data' := by
  intro g hg
  cases h with
  | @fillIn f hf hnone =>
      obtain ⟨hfallback, htrimmed⟩ := fallback_of_mem hf
      by_cases hname : f.name = g.name
      · have hnew : (data.insert f.name f.fallback).get? f.name = some f.fallback := by
          simp
        rw [← hname, effective_of_some hnew, htrimmed, effective, hnone, hfallback]
      · exact effective_congr (by simp [hname])
  | @leaveOut f hf hsome =>
      obtain ⟨hfallback, htrimmed⟩ := fallback_of_mem hf
      by_cases hname : f.name = g.name
      · rw [← hname, effective_of_some hsome, htrimmed, effective, KeyMap.get?_erase, if_pos rfl,
          hfallback]
      · exact effective_congr (by simp [hname])
  | pad hsome hfront hback =>
      refine effective_insert_of_trimmed hsome ?_ g.name
      rw [Text.trimmed, String.toList_ofList, Text.trim_padded _ hfront hback, Text.trimmed]
  | strip hsome =>
      refine effective_insert_of_trimmed hsome ?_ g.name
      rw [Text.trimmed, Text.trimmed, String.toList_ofList, Text.trim_trim]
  | addUnknown raw hunknown => exact effective_congr (by simp [(hunknown g hg).symm])
  | removeUnknown hunknown => exact effective_congr (by simp [(hunknown g hg).symm])

/-- Edits that are made one after the other do not change what holds for a field either. -/
theorem sameHeld_of_edits
    {data data' : KeyMap String}
    (h : Relation.ReflTransGen Edit data data') :
    SameHeld data data' := by
  induction h with
  | refl => exact fun _ _ => rfl
  | tail _ hedit ih => exact fun f hf => (hedit.sameHeld f hf).trans (ih f hf)

end Edits

section Forms

/-- The forms in which the values of settings are written. -/
inductive Form
  | switch
  | decimal
  | period

/-- A value is written in a form. -/
def Form.Writes : Form → String → Prop
  | switch, raw =>
      raw ∈ ["1", "t", "T", "true", "TRUE", "True"] ∨
        raw ∈ ["0", "f", "F", "false", "FALSE", "False"]
  | decimal, raw => ∃ l : Binary64.Literal, l.WrittenAs raw
  | period, raw => ∃ d : Duration, Duration.Denotes raw d

/-- A value is not written in a form, for causes that are reported. -/
inductive Form.Refuses : Form → String → List Problem → Prop
  | switch
      {raw : String} :
      ¬ Form.switch.Writes raw →
        Refuses .switch raw []
  | decimal
      {raw : String} :
      ¬ Form.decimal.Writes raw →
        Refuses .decimal raw [.badDecimal (if raw = "" then .empty else .malformed)]
  | period
      {raw : String}
      {fault : Duration.Fault} :
      Duration.FaultIn raw fault →
        Refuses .period raw [.badDuration fault raw]

/-- The keys whose values have a form, in the order in which they are read. -/
def readingOrder : List (String × Form) := [
  ("enable-scale-to-zero", .switch),
  ("container-concurrency-target-percentage", .decimal),
  ("container-concurrency-target-default", .decimal),
  ("requests-per-second-target-default", .decimal),
  ("max-scale-up-rate", .decimal),
  ("max-scale-down-rate", .decimal),
  ("target-burst-capacity", .decimal),
  ("panic-window-percentage", .decimal),
  ("panic-threshold-percentage", .decimal),
  ("stable-window", .period),
  ("scale-to-zero-grace-period", .period),
  ("scale-to-zero-pod-retention-period", .period),
  ("activator-capacity", .decimal)]

/-- Reads what holds for a key and drops what it stands for. -/
def Form.check
    (data : KeyMap String)
    (key : String) :
    Form → Except Failure Unit
  | switch => checkOf (readSwitch data key)
  | decimal => checkOf (readDecimal data key)
  | period => checkOf (readPeriod data key)

theorem switch_writes_iff
    {raw : String} :
    Form.switch.Writes raw ↔ ∃ b, readBoolean raw = some b := by
  rw [Form.Writes, readBoolean]
  split
  · simp [*]
  · split
    · simp [*]
    · simp [*]

variable {data : KeyMap String} {key : String} {failure : Failure}

theorem Form.check_eq_ok_iff
    {form : Form} :
    form.check data key = .ok () ↔ form.Writes (effective data key) := by
  cases form with
  | switch => simp only [check, checkOf_eq_ok_iff, readSwitch_eq_ok_iff, switch_writes_iff]
  | decimal =>
      simp only [check, checkOf_eq_ok_iff, readDecimal_eq_ok_iff, Binary64.read_eq_ok_iff]
      constructor
      · rintro ⟨_, l, hl, _⟩
        exact ⟨l, hl⟩
      · rintro ⟨l, hl⟩
        exact ⟨l.value, l, hl, rfl⟩
  | period => simp only [check, checkOf_eq_ok_iff, readPeriod_eq_ok_iff, Writes]

theorem readSwitch_eq_error_iff :
    readSwitch data key = .error failure ↔
      readBoolean (effective data key) = none ∧
        failure = .of (.unreadableSetting key (effective data key)) := by
  rw [readSwitch]
  cases readBoolean (effective data key) with
  | none => simp [eq_comm]
  | some _ => simp

/-- A fault that is reported as the cause of a problem. -/
theorem context_of_eq_error_iff
    {ε α : Type}
    {problem : Problem}
    {cause : ε → Problem}
    {x : Except ε α} :
    Failure.context problem (x.mapError fun fault => .of (cause fault)) = .error failure ↔
      ∃ fault, x = .error fault ∧ failure = ⟨problem, [cause fault]⟩ := by
  simp only [context_eq_error_iff, mapError_eq_error_iff]
  constructor
  · rintro ⟨_, ⟨fault, hx, rfl⟩, rfl⟩
    exact ⟨fault, hx, rfl⟩
  · rintro ⟨fault, hx, rfl⟩
    exact ⟨_, ⟨fault, hx, rfl⟩, rfl⟩

theorem readDecimal_eq_error_iff :
    readDecimal data key = .error failure ↔
      ∃ fault, Binary64.read (effective data key) = .error fault ∧
        failure = ⟨.unreadableSetting key (effective data key), [.badDecimal fault]⟩ :=
  context_of_eq_error_iff

theorem readPeriod_eq_error_iff :
    readPeriod data key = .error failure ↔
      ∃ fault, Duration.FaultIn (effective data key) fault ∧
        failure = ⟨.unreadableSetting key (effective data key),
          [.badDuration fault (effective data key)]⟩ := by
  simp only [← Duration.read_eq_error_iff]
  exact context_of_eq_error_iff

theorem Form.check_eq_error_iff
    {form : Form} :
    form.check data key = .error failure ↔
      ∃ causes, form.Refuses (effective data key) causes ∧
        failure = ⟨.unreadableSetting key (effective data key), causes⟩ := by
  cases form with
  | switch =>
      rw [check, checkOf_eq_error_iff, readSwitch_eq_error_iff]
      have hnone : readBoolean (effective data key) = none ↔
          ¬ Form.switch.Writes (effective data key) := by
        rw [switch_writes_iff, Option.eq_none_iff_forall_ne_some, not_exists]
      rw [hnone]
      constructor
      · rintro ⟨hwrites, rfl⟩
        exact ⟨[], .switch hwrites, rfl⟩
      · rintro ⟨_, ⟨hwrites⟩, rfl⟩
        exact ⟨hwrites, rfl⟩
  | decimal =>
      simp only [check, checkOf_eq_error_iff, readDecimal_eq_error_iff, Binary64.read_eq_error_iff]
      constructor
      · rintro ⟨_, ⟨hnone, rfl⟩, rfl⟩
        exact ⟨_, .decimal (not_exists.mpr hnone), rfl⟩
      · rintro ⟨_, ⟨⟩, rfl⟩
        rename_i hnone
        exact ⟨_, ⟨not_exists.mp hnone, rfl⟩, rfl⟩
  | period =>
      rw [check, checkOf_eq_error_iff, readPeriod_eq_error_iff]
      constructor
      · rintro ⟨fault, hfault, rfl⟩
        exact ⟨_, .period hfault, rfl⟩
      · rintro ⟨_, ⟨⟩, rfl⟩
        rename_i fault hfault
        exact ⟨fault, hfault, rfl⟩

end Forms

namespace Settings

/-- Without their results, the settings are read by checking one value after the other. -/
theorem checkOf_readAll
    (data : KeyMap String) :
    checkOf (readAll data) = readingOrder.forM fun e => e.2.check data e.1 := by
  simp only [readAll, checkOf_bind, checkOf_pure, readingOrder, forM_cons, Form.check,
    checkOf_bind_const, scaleToZeroKey]
  rfl

/-- Nothing but what holds for the fields is read. -/
theorem read_congr
    {data data' : KeyMap String}
    (h : SameHeld data data') :
    read data' = read data := by
  simp only [SameHeld, fields, List.forall_mem_cons] at h
  simp only [read, readAll, readSwitch, readDecimal, readPeriod, h]

/-- The first value that is not written in its form is that of a key, for causes that are
reported. -/
def FirstRefused
    (data : KeyMap String)
    (key : String)
    (causes : List Problem) :
    Prop :=
  ∃ before form after, readingOrder = before ++ (key, form) :: after ∧
    (∀ e ∈ before, e.2.Writes (effective data e.1)) ∧ form.Refuses (effective data key) causes

/-- What comes of reading settings, by the values that hold. -/
structure ReadFromHeld
    (data : KeyMap String) :
    Prop where
  held :
    ∀ f ∈ fields,
      effective data f.name = ((data.get? f.name).map Text.trimmed).getD f.fallback
  /-- Data in which the same holds are read alike. -/
  same :
    ∀ data', SameHeld data data' → read data' = read data
  /-- So are data that are edited without a change to what holds. -/
  edits :
    ∀ data', Relation.ReflTransGen Edit data data' → read data' = read data
  settings :
    ∀ s, read data = .ok s ↔ s.HeldBy data
  readable :
    (∃ s, read data = .ok s) ↔ ∀ e ∈ readingOrder, e.2.Writes (effective data e.1)
  failure :
    ∀ failure, read data = .error failure ↔
      ∃ key causes, FirstRefused data key causes ∧
        failure = ⟨.unreadableSettings, .unreadableSetting key (effective data key) :: causes⟩
  messages :
    ∀ failure, read data = .error failure →
      ∃ key causes, FirstRefused data key causes ∧
        (failure.problem :: failure.causes).map Problem.message =
          "failed to get autoscaling config" ::
            ("failed to parse " ++ key ++ ": " ++ effective data key) ::
              causes.map Problem.message

theorem readable_iff
    {data : KeyMap String} :
    (∃ s, read data = .ok s) ↔ ∀ e ∈ readingOrder, e.2.Writes (effective data e.1) := by
  simp only [read, context_eq_ok_iff]
  rw [← checkOf_eq_ok_iff, checkOf_readAll, forM_eq_ok_iff]
  simp only [Form.check_eq_ok_iff]

theorem read_eq_error_iff
    {data : KeyMap String}
    {failure : Failure} :
    read data = .error failure ↔
      ∃ key causes, FirstRefused data key causes ∧
        failure = ⟨.unreadableSettings, .unreadableSetting key (effective data key) :: causes⟩ := by
  rw [read, context_eq_error_iff]
  constructor
  · rintro ⟨cause, hcause, rfl⟩
    rw [← checkOf_eq_error_iff, checkOf_readAll, forM_eq_error_iff] at hcause
    obtain ⟨before, ⟨key, form⟩, after, horder, hbefore, hcheck⟩ := hcause
    obtain ⟨causes, hrefuses, rfl⟩ := Form.check_eq_error_iff.mp hcheck
    exact ⟨key, causes,
      ⟨before, form, after, horder, fun e he => Form.check_eq_ok_iff.mp (hbefore e he), hrefuses⟩,
      rfl⟩
  · rintro ⟨key, causes, ⟨before, form, after, horder, hbefore, hrefuses⟩, rfl⟩
    refine ⟨⟨.unreadableSetting key (effective data key), causes⟩, ?_, rfl⟩
    rw [← checkOf_eq_error_iff, checkOf_readAll, forM_eq_error_iff]
    exact ⟨before, (key, form), after, horder, fun e he => Form.check_eq_ok_iff.mpr (hbefore e he),
      Form.check_eq_error_iff.mpr ⟨causes, hrefuses, rfl⟩⟩

/-- Settings are read from what holds for the fields, and fail to be read for the first value that
is not written in the form of its setting. -/
theorem readFromHeld
    (data : KeyMap String) :
    ReadFromHeld data where
  held f hf := by
    rw [effective]
    cases data.get? f.name with
    | none => exact (fallback_of_mem hf).1
    | some _ => rfl
  same _ hsame := read_congr hsame
  edits _ hedits := read_congr (sameHeld_of_edits hedits)
  settings _ := read_eq_ok_iff
  readable := readable_iff
  failure _ := read_eq_error_iff
  messages failure hread := by
    obtain ⟨key, causes, hfirst, rfl⟩ := read_eq_error_iff.mp hread
    exact ⟨key, causes, hfirst, rfl⟩

end Settings

end Autoscaling
end ServingAdmin
