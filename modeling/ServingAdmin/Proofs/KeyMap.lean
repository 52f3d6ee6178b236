import ServingAdmin.KeyMap

/-!
# Lookups in maps that are built up

A map is built up by inserting entries one after the other, from a selection of entries, or by
changing values.  Each time it is said what is found under a key; as maps with the same lookups are
equal, the entries of a map build it up again (`KeyMap.ofList_entries`).
-/

namespace ServingAdmin
namespace KeyMap

variable {α β : Type}

/-- A key that is before all listed keys is not found. -/
theorem lookup_eq_none_of_lt
    {k : String}
    {l : List (String × α)}
    (h : ∀ e ∈ l, k < e.1) :
    lookup k l = none := by
  cases hl : lookup k l with
  | none => rfl
  | some v => exact absurd (h (k, v) (mem_of_lookup hl)) (String.lt_irrefl k)

/-- Entries that are inserted one after the other go over those that are there. -/
theorem get?_foldl_insert
    {l : List (String × α)}
    (hl : l.Pairwise (fun a b => a.1 < b.1))
    (m : KeyMap α)
    (k : String) :
    (l.foldl (fun m e => m.insert e.1 e.2) m).get? k = (lookup k l).or (m.get? k) := by
  induction l generalizing m with
  | nil => rfl
  | cons e rest ih =>
      obtain ⟨j, v⟩ := e
      obtain ⟨hlt, hrest⟩ := List.pairwise_cons.mp hl
      rw [List.foldl_cons, ih hrest, get?_insert, lookup]
      by_cases hj : j = k
      · subst hj
        simp [lookup_eq_none_of_lt hlt]
      · simp [hj]

/-- The entries of a map build it up. -/
theorem ofList_entries
    (m : KeyMap α) :
    ofList m.entries = m := by
  refine ext_get? fun k => ?_
  rw [ofList, get?_foldl_insert m.increasing, get?_empty, Option.or_none]
  rfl

/-- Of increasing entries those are found in a selection of them that were selected. -/
theorem lookup_filter_of_increasing
    {l : List (String × α)}
    (hl : l.Pairwise (fun a b => a.1 < b.1))
    (p : String × α → Bool)
    (k : String) :
    lookup k (l.filter p) = (lookup k l).filter fun v => p (k, v) := by
  ext v
  rw [Option.filter_eq_some_iff]
  constructor
  · intro h
    obtain ⟨hmem, hp⟩ := List.mem_filter.mp (mem_of_lookup h)
    exact ⟨lookup_of_mem hl hmem, hp⟩
  · rintro ⟨h, hp⟩
    exact lookup_of_mem (hl.filter p) (List.mem_filter.mpr ⟨mem_of_lookup h, hp⟩)

/-- To change values changes what is found. -/
@[simp] theorem get?_mapValues
    (f : α → β)
    (m : KeyMap α)
    (k : String) :
    (m.mapValues f).get? k = (m.get? k).map f := by
  have hlookup : ∀ l : List (String × α),
      lookup k (l.map fun e => (e.1, f e.2)) = (lookup k l).map f := by
    intro l
    induction l with
    | nil => rfl
    | cons e rest ih =>
        by_cases he : e.1 = k
        · simp [lookup, he]
        · simpa [lookup, he] using ih
  exact hlookup m.entries

end KeyMap
end ServingAdmin
