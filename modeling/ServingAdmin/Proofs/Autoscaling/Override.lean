import Mathlib.Logic.Basic
import ServingAdmin.Autoscaling.Update
import ServingAdmin.Proofs.KeyMap

/-!
# Changes go over the data

Making changes to data is an override: a key of the changes gets the value that they have
for it, and every other key is left alone (`Changes.get?_applyTo`).  Changes alter data
exactly if the override differs from them (`Changes.alters_iff`), and what has been
changed is not altered by the same changes again.

The changes can as well be made one after the other, each in the data that those before it have
left, with a note of whether any of them was needed (`Changes.settleAll_eq`).
-/

namespace ServingAdmin
namespace Autoscaling
namespace Changes

/-- A key of the changes gets its value, and every other key keeps what it has. -/
theorem get?_applyTo
    (c : Changes)
    (data : KeyMap String)
    (k : String) :
    (c.applyTo data).get? k = (c.values.get? k).or (data.get? k) := by
  have hincreasing := c.values.increasing.filter fun e => data.get? e.1 ≠ some e.2
  rw [applyTo, pending, KeyMap.get?_foldl_insert hincreasing,
    KeyMap.lookup_filter_of_increasing c.values.increasing]
  change ((c.values.get? k).filter _).or _ = _
  cases hk : c.values.get? k with
  | none => rfl
  | some v =>
      -- a value that the data hold already is not pending, but it is the value all the same
      by_cases hv : data.get? k = some v <;> simp [Option.filter, hv]

/-- Changes leave data alone that hold all of their values. -/
theorem applyTo_eq_self_iff
    (c : Changes)
    (data : KeyMap String) :
    c.applyTo data = data ↔ ∀ k v, c.values.get? k = some v → data.get? k = some v := by
  constructor
  · intro h k v hv
    have hk := c.get?_applyTo data k
    rw [h, hv] at hk
    simpa using hk
  · intro h
    refine KeyMap.ext_get? fun k => ?_
    rw [get?_applyTo]
    cases hv : c.values.get? k with
    | none => rfl
    | some v => simp [h k v hv]

/-- Changes that do not alter data are those that leave them alone. -/
theorem alters_eq_false_iff
    (c : Changes)
    (data : KeyMap String) :
    c.alters data = false ↔ c.applyTo data = data := by
  rw [applyTo_eq_self_iff]
  simp only [alters, pending, Bool.not_eq_false', List.isEmpty_iff, List.filter_eq_nil_iff,
    decide_eq_true_eq, not_not]
  constructor
  · intro h k v hv
    exact h (k, v) ((KeyMap.mem_entries_iff c.values k v).mpr hv)
  · rintro h ⟨k, v⟩ he
    exact h k v ((KeyMap.mem_entries_iff c.values k v).mp he)

/-- Changes alter data exactly if making them gives other data. -/
theorem alters_iff
    (c : Changes)
    (data : KeyMap String) :
    c.alters data = true ↔ c.applyTo data ≠ data := by
  rw [ne_eq, ← alters_eq_false_iff, Bool.not_eq_false]

/-- What has been changed is not altered by the same changes again. -/
theorem alters_applyTo
    (c : Changes)
    (data : KeyMap String) :
    c.alters (c.applyTo data) = false := by
  rw [alters_eq_false_iff, applyTo_eq_self_iff]
  intro k v hv
  rw [get?_applyTo, hv]
  rfl

section OneByOne

/-- Writes a wanted value unless its key holds it already, and notes that something was written. -/
def settle
    (state : KeyMap String × Bool)
    (e : String × String) :
    KeyMap String × Bool :=
  if state.1.get? e.1 = some e.2 then state else (state.1.insert e.1 e.2, true)

/-- The data after the changes have been made one by one, by increasing key, and whether anything
was written. -/
def settleAll
    (c : Changes)
    (data : KeyMap String) :
    KeyMap String × Bool :=
  c.values.entries.foldl settle (data, false)

/-- What is written for other keys does not matter for the entries behind them. -/
theorem filter_insert_of_increasing
    {e : String × String}
    {rest : List (String × String)}
    (h : ∀ e' ∈ rest, e.1 < e'.1)
    (m : KeyMap String) :
    (rest.filter fun e' => (m.insert e.1 e.2).get? e'.1 ≠ some e'.2) =
      rest.filter fun e' => m.get? e'.1 ≠ some e'.2 := by
  refine List.filter_congr fun e' he' => ?_
  have hne : e.1 ≠ e'.1 := fun heq => String.lt_irrefl e'.1 (heq ▸ h e' he')
  rw [KeyMap.get?_insert, if_neg hne]

/-- Entries with increasing keys that are settled one by one are written exactly if the data do not
hold them at the outset. -/
theorem foldl_settle
    {l : List (String × String)}
    (hl : l.Pairwise fun a b => a.1 < b.1)
    (m : KeyMap String)
    (written : Bool) :
    l.foldl settle (m, written) =
      ((l.filter fun e => m.get? e.1 ≠ some e.2).foldl (fun m e => m.insert e.1 e.2) m,
        written || !(l.filter fun e => m.get? e.1 ≠ some e.2).isEmpty) := by
  induction l generalizing m written with
  | nil => simp
  | cons e rest ih =>
      obtain ⟨hlt, hrest⟩ := List.pairwise_cons.mp hl
      by_cases he : m.get? e.1 = some e.2
      · have hsettle : settle (m, written) e = (m, written) := if_pos he
        rw [List.foldl_cons, hsettle, ih hrest, List.filter_cons_of_neg (by simpa using he)]
      · have hsettle : settle (m, written) e = (m.insert e.1 e.2, true) := if_neg he
        rw [List.foldl_cons, hsettle, ih hrest, filter_insert_of_increasing hlt,
          List.filter_cons_of_pos (by simpa using he)]
        simp

/-- Changes that are made one by one come to the same as the pending ones of them. -/
theorem settleAll_eq
    (c : Changes)
    (data : KeyMap String) :
    c.settleAll data = (c.applyTo data, c.alters data) := by
  rw [settleAll, foldl_settle c.values.increasing, Bool.false_or]
  rfl

end OneByOne

section Order

/-- Changes that want the same values under the keys that both of them have. -/
def Agrees
    (c c' : Changes) :
    Prop :=
  ∀ k v v', c.values.get? k = some v → c'.values.get? k = some v' → v = v'

/-- Changes that agree may be made in either order. -/
theorem applyTo_comm
    {c c' : Changes}
    (h : c.Agrees c')
    (data : KeyMap String) :
    c.applyTo (c'.applyTo data) = c'.applyTo (c.applyTo data) := by
  refine KeyMap.ext_get? fun k => ?_
  simp only [get?_applyTo]
  cases hk : c.values.get? k with
  | none => rfl
  | some v =>
      cases hk' : c'.values.get? k with
      | none => rfl
      | some v' =>
          cases h k v v' hk hk'
          rfl

end Order

/-- Changes go over data, and it is said whether this gives other data. -/
structure Overrides
    (c : Changes)
    (before after : KeyMap String)
    (written : Bool) :
    Prop where
  changed :
    ∀ k v, c.values.get? k = some v → after.get? k = some v
  kept :
    ∀ k, c.values.get? k = none → after.get? k = before.get? k
  written_iff :
    written = true ↔ after ≠ before

/-- One by one the changes go over the data and over nothing else.  To make them again changes
nothing, and those that agree may be made in either order. -/
theorem settleAll_overrides
    (c : Changes)
    (data : KeyMap String) :
    c.settleAll data = (c.applyTo data, c.alters data) ∧
      c.Overrides data (c.applyTo data) (c.alters data) ∧
      c.settleAll (c.applyTo data) = (c.applyTo data, false) ∧
      ∀ c' : Changes, c.Agrees c' →
        c.applyTo (c'.applyTo data) = c'.applyTo (c.applyTo data) := by
  have hagain : c.applyTo (c.applyTo data) = c.applyTo data :=
    (c.alters_eq_false_iff _).mp (c.alters_applyTo data)
  refine ⟨c.settleAll_eq data, ⟨fun k v hk => ?_, fun k hk => ?_, c.alters_iff data⟩, ?_,
    fun c' hc' => applyTo_comm hc' data⟩
  · rw [get?_applyTo, hk, Option.some_or]
  · rw [get?_applyTo, hk, Option.none_or]
  · rw [settleAll_eq, hagain, alters_applyTo]

end Changes
end Autoscaling
end ServingAdmin
