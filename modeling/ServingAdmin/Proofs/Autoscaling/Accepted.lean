import ServingAdmin.Proofs.Autoscaling.Override
import ServingAdmin.Proofs.Autoscaling.Trimming
import ServingAdmin.Proofs.Checks

/-!
# What is stored for the values that are accepted

For each kind of field, which values are accepted and what is stored for them
(`Field.accept_eq_ok_iff`).  The changes that come out of a check have for each key what is stored
for the last value that the update gives for it, and without one what the flags ask for.
-/

namespace ServingAdmin
namespace Autoscaling

theorem readDuration_eq_ok_iff
    {raw : String}
    {d : Duration} :
    readDuration raw = .ok d ↔ Duration.Denotes raw d := by
  rw [← Duration.read_eq_ok_iff, readDuration, mapError_eq_ok_iff]

/-- What is stored for a value that a field of some kind accepts. -/
inductive Stores : FieldKind → String → String → Prop
  | boolean
      {raw : String}
      {b : Bool} :
      readBoolean raw = some b →
        Stores .boolean raw (booleanText b)
  | window
      {raw : String}
      {d : Duration} :
      Duration.Denotes raw d →
        windowMin ≤ d →
          d ≤ windowMax →
            d.isWholeSeconds = true →
              Stores .window raw d.secondsText
  | gracePeriod
      {raw : String}
      {d : Duration} :
      Duration.Denotes raw d →
        windowMin ≤ d →
          Stores .gracePeriod raw d.secondsText
  | retentionPeriod
      {raw : String}
      {d : Duration} :
      Duration.Denotes raw d →
        d.isNegative = false →
          Stores .retentionPeriod raw d.secondsText
  | rate
      {raw : String}
      {negative : Bool}
      {units : Nat} :
      Binary64.read raw = .ok (.finite negative units) →
        Binary64.unitsPerOne < Binary64.signedUnits negative units →
          Stores .rate raw raw
  | burstCapacity
      {raw : String}
      {negative : Bool}
      {units : Nat} :
      Binary64.read raw = .ok (.finite negative units) →
        Field.isCapacity (Binary64.signedUnits negative units) →
          Stores .burstCapacity raw raw
  | activatorCapacity
      {raw : String}
      {negative : Bool}
      {units : Nat} :
      Binary64.read raw = .ok (.finite negative units) →
        Binary64.unitsPerOne ≤ Binary64.signedUnits negative units →
          Stores .activatorCapacity raw raw
  | verbatim
      (raw : String) :
      Stores .verbatim raw raw

namespace Field

theorem of_named?
    {key : String}
    {f : Field}
    (h : Field.named? key = some f) :
    f ∈ fields ∧ f.name = key := by
  have hname := List.find?_some h
  exact ⟨List.mem_of_find?_eq_some h, by simpa using hname⟩

theorem readUnits_eq_ok_iff
    {f : Field}
    {raw : String}
    {units : Int} :
    f.readUnits raw = .ok units ↔
      ∃ negative n, Binary64.read raw = .ok (.finite negative n) ∧
        Binary64.signedUnits negative n = units := by
  rw [readUnits]
  constructor
  · intro h
    split at h
    · cases h
    · rename_i negative n hread
      exact ⟨negative, n, hread, Except.ok.inj h⟩
    · cases h
  · rintro ⟨negative, n, hread, rfl⟩
    rw [hread]

theorem problem_of_readUnits
    {f : Field}
    {raw : String}
    {failure : Failure}
    (h : f.readUnits raw = .error failure) :
    failure.problem = .rejectedField f.name (.notDecimal raw) := by
  rw [readUnits] at h
  split at h
  · cases h
    rfl
  · cases h
  · cases h
    rfl

/-- A check passes its result on exactly where it does not fail. -/
theorem ite_reject_eq_ok_iff
    {f : Field}
    {p : Prop}
    [Decidable p]
    {reason : Rejection}
    {r : Except Failure String}
    {stored : String} :
    (if p then f.reject reason else r) = .ok stored ↔ ¬ p ∧ r = .ok stored := by
  by_cases hp : p
  · simp [hp, reject]
  · simp [hp]

/-- A field accepts a value exactly if there is something to store for it, and then gives that. -/
theorem accept_eq_ok_iff
    {f : Field}
    {raw stored : String} :
    f.accept raw = .ok stored ↔ Stores f.kind raw stored := by
  obtain ⟨name, kind, fallback, help⟩ := f
  constructor
  · intro h
    cases kind with
    | boolean =>
        simp only [accept] at h
        split at h
        · rename_i hread
          cases h
          exact .boolean hread
        · cases h
    | window =>
        obtain ⟨d, hread, h⟩ := bind_eq_ok_iff.mp h
        obtain ⟨hrange, h⟩ := ite_reject_eq_ok_iff.mp h
        split at h
        · rename_i hwhole
          cases h
          have hrange' := not_or.mp hrange
          exact .window (readDuration_eq_ok_iff.mp hread) (Int.not_lt.mp hrange'.1)
            (Int.not_lt.mp hrange'.2) hwhole
        · cases h
    | gracePeriod =>
        obtain ⟨d, hread, h⟩ := bind_eq_ok_iff.mp h
        obtain ⟨hlong, h⟩ := ite_reject_eq_ok_iff.mp h
        cases h
        exact .gracePeriod (readDuration_eq_ok_iff.mp hread) (Int.not_lt.mp hlong)
    | retentionPeriod =>
        obtain ⟨d, hread, h⟩ := bind_eq_ok_iff.mp h
        obtain ⟨hsign, h⟩ := ite_reject_eq_ok_iff.mp h
        cases h
        exact .retentionPeriod (readDuration_eq_ok_iff.mp hread) (Bool.not_eq_true _ ▸ hsign)
    | rate =>
        obtain ⟨units, hunits, h⟩ := bind_eq_ok_iff.mp h
        obtain ⟨hlarge, h⟩ := ite_reject_eq_ok_iff.mp h
        cases h
        obtain ⟨negative, n, hread, rfl⟩ := readUnits_eq_ok_iff.mp hunits
        exact .rate hread (Int.not_le.mp hlarge)
    | burstCapacity =>
        obtain ⟨units, hunits, h⟩ := bind_eq_ok_iff.mp h
        obtain ⟨negative, n, hread, rfl⟩ := readUnits_eq_ok_iff.mp hunits
        split at h
        · rename_i hcapacity
          cases h
          exact .burstCapacity hread hcapacity
        · cases h
    | activatorCapacity =>
        obtain ⟨units, hunits, h⟩ := bind_eq_ok_iff.mp h
        obtain ⟨hlarge, h⟩ := ite_reject_eq_ok_iff.mp h
        cases h
        obtain ⟨negative, n, hread, rfl⟩ := readUnits_eq_ok_iff.mp hunits
        exact .activatorCapacity hread (Int.not_lt.mp hlarge)
    | verbatim =>
        cases h
        exact .verbatim raw
  · intro h
    cases h with
    | boolean hread => simp only [accept, hread]
    | window hread hlow hhigh hwhole =>
        refine bind_eq_ok_iff.mpr ⟨_, readDuration_eq_ok_iff.mpr hread, ?_⟩
        refine ite_reject_eq_ok_iff.mpr ⟨?_, if_pos hwhole⟩
        exact not_or.mpr ⟨Int.not_lt.mpr hlow, Int.not_lt.mpr hhigh⟩
    | gracePeriod hread hlong =>
        refine bind_eq_ok_iff.mpr ⟨_, readDuration_eq_ok_iff.mpr hread, ?_⟩
        exact ite_reject_eq_ok_iff.mpr ⟨Int.not_lt.mpr hlong, rfl⟩
    | retentionPeriod hread hsign =>
        refine bind_eq_ok_iff.mpr ⟨_, readDuration_eq_ok_iff.mpr hread, ?_⟩
        exact ite_reject_eq_ok_iff.mpr ⟨by simp [hsign], rfl⟩
    | rate hread hlarge =>
        refine bind_eq_ok_iff.mpr ⟨_, readUnits_eq_ok_iff.mpr ⟨_, _, hread, rfl⟩, ?_⟩
        exact ite_reject_eq_ok_iff.mpr ⟨Int.not_le.mpr hlarge, rfl⟩
    | burstCapacity hread hcapacity =>
        refine bind_eq_ok_iff.mpr ⟨_, readUnits_eq_ok_iff.mpr ⟨_, _, hread, rfl⟩, ?_⟩
        exact if_pos hcapacity
    | activatorCapacity hread hlarge =>
        refine bind_eq_ok_iff.mpr ⟨_, readUnits_eq_ok_iff.mpr ⟨_, _, hread, rfl⟩, ?_⟩
        exact ite_reject_eq_ok_iff.mpr ⟨Int.not_lt.mpr hlarge, rfl⟩
    | verbatim => rfl

end Field

/-- A value is accepted under a name exactly if the field of that name accepts it. -/
theorem accept_eq_ok_iff
    {key raw stored : String} :
    accept key raw = .ok stored ↔ ∃ f, Field.named? key = some f ∧ Stores f.kind raw stored := by
  rw [accept]
  cases Field.named? key with
  | none => simp
  | some f => simp [Field.accept_eq_ok_iff]

/-- Under the name of a field just what this field accepts is accepted. -/
theorem accept_eq_ok_iff_of_named
    {key raw stored : String}
    {f : Field}
    (hf : Field.named? key = some f) :
    accept key raw = .ok stored ↔ Stores f.kind raw stored := by
  rw [accept, hf]
  exact Field.accept_eq_ok_iff

namespace Update

/-- The last value that an update gives for a key. -/
def lastGiven?
    (u : Update)
    (key : String) :
    Option String :=
  u.values.reverse.lookup key

theorem mem_values_of_lastGiven?
    {u : Update}
    {key raw : String}
    (h : u.lastGiven? key = some raw) :
    (key, raw) ∈ u.values := by
  obtain ⟨before, after, hvalues, _⟩ := List.lookup_eq_some_iff.mp h
  rw [← List.mem_reverse, hvalues]
  simp

theorem lastGiven?_eq_none
    {u : Update}
    {key : String}
    (h : ∀ e ∈ u.values, e.1 ≠ key) :
    u.lastGiven? key = none := by
  rw [lastGiven?, List.lookup_eq_none_iff]
  intro e he
  simpa using Ne.symm (h e (List.mem_reverse.mp he))

/-- What comes out for a key is stored for the last value listed for it, or was there before. -/
theorem get?_acceptAll
    {m m' : KeyMap String}
    {l : List (String × String)}
    (h : acceptAll m l = .ok m')
    (key : String) :
    match l.reverse.lookup key with
    | some raw => ∃ stored, accept key raw = .ok stored ∧ m'.get? key = some stored
    | none => m'.get? key = m.get? key := by
  induction l generalizing m with
  | nil =>
      cases h
      rfl
  | cons e rest ih =>
      obtain ⟨field, raw⟩ := e
      rw [acceptAll] at h
      split at h
      · rename_i stored hstored
        have hrest := ih h
        rw [List.reverse_cons, List.lookup_append, List.lookup_singleton]
        cases hlast : rest.reverse.lookup key with
        | some raw' =>
            rw [hlast] at hrest
            exact hrest
        | none =>
            rw [hlast, KeyMap.get?_insert] at hrest
            by_cases hkey : field = key
            · subst hkey
              simpa [hstored] using hrest
            · have hne : (key == field) = false := by
                simpa using Ne.symm hkey
              simpa [hne, hkey] using hrest
      · cases h

/-- An update is accepted exactly if it asks for something, does not switch scale-to-zero both on
and off, and all its values are accepted, which go over what the flags ask for. -/
theorem check_eq_ok_iff
    {u : Update}
    {changes : Changes} :
    u.check = .ok changes ↔
      u.isEmpty = false ∧ (u.enable && u.disable) = false ∧
        acceptAll u.flagChanges u.values = .ok changes.values := by
  rw [check]
  by_cases hempty : u.isEmpty = true
  · simp [hempty]
  · by_cases hboth : (u.enable && u.disable) = true
    · simp [hempty, hboth]
    · rw [if_neg hempty, if_neg hboth]
      simp only [Bool.not_eq_true] at hempty hboth
      cases acceptAll u.flagChanges u.values with
      | error _ => simp [Except.map]
      | ok m =>
          obtain ⟨values⟩ := changes
          simp [Except.map, hempty, hboth]

theorem get?_flagChanges_of_ne
    {u : Update}
    {key : String}
    (h : key ≠ scaleToZeroKey) :
    u.flagChanges.get? key = none := by
  unfold flagChanges
  cases u.enable <;> cases u.disable <;> simp [Ne.symm h]

theorem get?_flagChanges_scaleToZeroKey
    (u : Update) :
    u.flagChanges.get? scaleToZeroKey =
      if u.disable then some (booleanText false)
      else if u.enable then some (booleanText true)
      else none := by
  unfold flagChanges
  cases u.enable <;> cases u.disable <;> simp

/-- Accepted changes have what is stored for the last value given for a key. -/
theorem get?_of_check_of_given
    {u : Update}
    {changes : Changes}
    {key raw : String}
    (hcheck : u.check = .ok changes)
    (hlast : u.lastGiven? key = some raw) :
    ∃ stored, accept key raw = .ok stored ∧ changes.values.get? key = some stored := by
  have hvalues := get?_acceptAll (check_eq_ok_iff.mp hcheck).2.2 key
  rw [← lastGiven?, hlast] at hvalues
  exact hvalues

/-- For a key without a value accepted changes have what the flags ask for. -/
theorem get?_of_check_of_not_given
    {u : Update}
    {changes : Changes}
    {key : String}
    (hcheck : u.check = .ok changes)
    (hlast : u.lastGiven? key = none) :
    changes.values.get? key = u.flagChanges.get? key := by
  have hvalues := get?_acceptAll (check_eq_ok_iff.mp hcheck).2.2 key
  rw [← lastGiven?, hlast] at hvalues
  exact hvalues

end Update

end Autoscaling
end ServingAdmin
