/-!
# Maps from text keys

The data of a config map, the labels of an object and the servers of a registry
secret are all finite maps whose keys are texts.  A `KeyMap` keeps its entries in
the order of the keys, which is the order of their code points and therefore also
the order of their UTF-8 octets.

The order is part of the type, so two maps with the same lookups are equal
(`KeyMap.ext_get?`) and every operation is pinned down by what it does to `get?`.
-/

namespace ServingAdmin

universe u

/-- A finite map from texts, listed by increasing key. -/
structure KeyMap (α : Type u) where
  entries : List (String × α)
  increasing : entries.Pairwise (fun a b => a.1 < b.1)

namespace KeyMap

variable {α : Type u}

/-- The value listed under a key. -/
def lookup (k : String) : List (String × α) → Option α
  | [] => none
  | (k', v) :: rest => if k' = k then some v else lookup k rest

/-- Puts a value at its place, over the one that its key had. -/
def insertInto (k : String) (v : α) : List (String × α) → List (String × α)
  | [] => [(k, v)]
  | (k', v') :: rest =>
      if k < k' then (k, v) :: (k', v') :: rest
      else if k' = k then (k, v) :: rest
      else (k', v') :: insertInto k v rest

/-- Texts are ordered linearly. -/
theorem lt_of_not_lt_of_ne {a b : String} (hlt : ¬ a < b) (hne : b ≠ a) : b < a := by
  rcases Classical.em (b < a) with h | h
  · exact h
  · exact absurd (String.le_antisymm (String.not_lt.mp hlt) (String.not_lt.mp h)) hne

/-- An entry after an insertion is the new one or an old one. -/
theorem mem_insertInto {k : String} {v : α} {e : String × α} {l : List (String × α)}
    (h : e ∈ insertInto k v l) : e = (k, v) ∨ e ∈ l := by
  induction l with
  | nil => simpa [insertInto] using h
  | cons hd rest ih =>
      obtain ⟨k', v'⟩ := hd
      rw [insertInto] at h
      split at h
      · simpa using h
      · split at h
        · rcases List.mem_cons.mp h with h | h
          · exact Or.inl h
          · exact Or.inr (List.mem_cons_of_mem _ h)
        · rcases List.mem_cons.mp h with h | h
          · exact Or.inr (h ▸ List.mem_cons_self)
          · rcases ih h with h | h
            · exact Or.inl h
            · exact Or.inr (List.mem_cons_of_mem _ h)

/-- An insertion keeps the keys increasing. -/
theorem increasing_insertInto {k : String} {v : α} {l : List (String × α)}
    (h : l.Pairwise (fun a b => a.1 < b.1)) :
    (insertInto k v l).Pairwise (fun a b => a.1 < b.1) := by
  induction l with
  | nil => simp [insertInto]
  | cons hd rest ih =>
      obtain ⟨k', v'⟩ := hd
      obtain ⟨hhd, hrest⟩ := List.pairwise_cons.mp h
      rw [insertInto]
      split
      · rename_i hlt
        refine List.pairwise_cons.mpr ⟨fun e he => ?_, h⟩
        rcases List.mem_cons.mp he with he | he
        · exact he ▸ hlt
        · exact String.lt_trans hlt (hhd e he)
      · split
        · rename_i heq
          exact List.pairwise_cons.mpr ⟨fun e he => heq ▸ hhd e he, hrest⟩
        · rename_i hlt hne
          refine List.pairwise_cons.mpr ⟨fun e he => ?_, ih hrest⟩
          rcases mem_insertInto he with he | he
          · exact he ▸ lt_of_not_lt_of_ne hlt hne
          · exact hhd e he

/-- The map without entries. -/
def empty : KeyMap α := ⟨[], List.Pairwise.nil⟩

instance : EmptyCollection (KeyMap α) := ⟨empty⟩
instance : Inhabited (KeyMap α) := ⟨empty⟩

/-- The value under a key. -/
def get? (m : KeyMap α) (k : String) : Option α := lookup k m.entries

/-- The map with a value put under a key. -/
def insert (m : KeyMap α) (k : String) (v : α) : KeyMap α :=
  ⟨insertInto k v m.entries, increasing_insertInto m.increasing⟩

/-- The map without a key. -/
def erase (m : KeyMap α) (k : String) : KeyMap α :=
  ⟨m.entries.filter (fun e => e.1 ≠ k), m.increasing.filter _⟩

/-- The map of a list of entries; of entries with one key the last counts. -/
def ofList (l : List (String × α)) : KeyMap α :=
  l.foldl (fun m e => m.insert e.1 e.2) empty

/-- The keys, increasing. -/
def keys (m : KeyMap α) : List String := m.entries.map Prod.fst

/-- The map whose values are changed one by one. -/
def mapValues {β : Type u} (f : α → β) (m : KeyMap α) : KeyMap β :=
  ⟨m.entries.map (fun e => (e.1, f e.2)), by
    refine List.pairwise_map.mpr ?_
    exact m.increasing⟩

theorem eq_of_entries_eq {m n : KeyMap α} (h : m.entries = n.entries) : m = n := by
  cases m; cases n; cases h; rfl

instance [DecidableEq α] : DecidableEq (KeyMap α) := fun m n =>
  decidable_of_iff (m.entries = n.entries) ⟨eq_of_entries_eq, fun h => h ▸ rfl⟩

/-! ### Lookups -/

theorem lookup_insertInto (k k' : String) (v : α) (l : List (String × α)) :
    lookup k' (insertInto k v l) = if k = k' then some v else lookup k' l := by
  induction l with
  | nil => simp [insertInto, lookup]
  | cons hd rest ih =>
      obtain ⟨j, w⟩ := hd
      rw [insertInto]
      split
      · simp [lookup]
      · split
        · rename_i heq
          subst heq
          by_cases h : j = k' <;> simp [lookup, h]
        · rename_i hne
          by_cases h : j = k'
          · subst h
            simp [lookup, Ne.symm hne]
          · simp [lookup, h, ih]

/-- An insertion changes the lookup of its key and of no other. -/
@[simp] theorem get?_insert (m : KeyMap α) (k k' : String) (v : α) :
    (m.insert k v).get? k' = if k = k' then some v else m.get? k' :=
  lookup_insertInto k k' v m.entries

@[simp] theorem get?_empty (k : String) : (empty : KeyMap α).get? k = none := rfl

theorem lookup_filter (k k' : String) (l : List (String × α)) :
    lookup k' (l.filter (fun e => e.1 ≠ k)) = if k = k' then none else lookup k' l := by
  induction l with
  | nil => simp [lookup]
  | cons hd rest ih =>
      obtain ⟨j, w⟩ := hd
      by_cases hj : j = k
      · subst hj
        by_cases h : j = k' <;> simp_all [lookup]
      · by_cases h : j = k'
        · subst h
          simp [lookup, hj, Ne.symm hj]
        · simp_all [lookup]

/-- A removal changes the lookup of its key and of no other. -/
@[simp] theorem get?_erase (m : KeyMap α) (k k' : String) :
    (m.erase k).get? k' = if k = k' then none else m.get? k' :=
  lookup_filter k k' m.entries

/-- Only listed entries are found. -/
theorem mem_of_lookup {k : String} {v : α} {l : List (String × α)}
    (h : lookup k l = some v) : (k, v) ∈ l := by
  induction l with
  | nil => simp [lookup] at h
  | cons hd rest ih =>
      obtain ⟨j, w⟩ := hd
      by_cases hj : j = k
      · simp_all [lookup]
      · simp only [lookup, hj, if_false] at h
        exact List.mem_cons_of_mem _ (ih h)

/-- Every listed entry is found. -/
theorem lookup_of_mem {k : String} {v : α} {l : List (String × α)}
    (hl : l.Pairwise (fun a b => a.1 < b.1)) (h : (k, v) ∈ l) : lookup k l = some v := by
  induction l with
  | nil => cases h
  | cons hd rest ih =>
      obtain ⟨j, w⟩ := hd
      obtain ⟨hhd, hrest⟩ := List.pairwise_cons.mp hl
      rcases List.mem_cons.mp h with h | h
      · cases h
        simp [lookup]
      · have hlt : j < k := hhd _ h
        have hne : j ≠ k := fun e => String.lt_irrefl k (e ▸ hlt)
        simpa [lookup, hne] using ih hrest h

/-- The entries are exactly the lookups. -/
theorem mem_entries_iff (m : KeyMap α) (k : String) (v : α) :
    (k, v) ∈ m.entries ↔ m.get? k = some v :=
  ⟨lookup_of_mem m.increasing, mem_of_lookup⟩

/-- Two increasing lists with the same members are one list. -/
theorem eq_of_increasing_of_mem_iff {l₁ l₂ : List (String × α)}
    (h₁ : l₁.Pairwise (fun a b => a.1 < b.1)) (h₂ : l₂.Pairwise (fun a b => a.1 < b.1))
    (h : ∀ e, e ∈ l₁ ↔ e ∈ l₂) : l₁ = l₂ := by
  induction l₁ generalizing l₂ with
  | nil =>
      cases l₂ with
      | nil => rfl
      | cons e r => exact absurd ((h e).mpr List.mem_cons_self) (by simp)
  | cons a r₁ ih =>
      cases l₂ with
      | nil => exact absurd ((h a).mp List.mem_cons_self) (by simp)
      | cons b r₂ =>
          obtain ⟨ha, hr₁⟩ := List.pairwise_cons.mp h₁
          obtain ⟨hb, hr₂⟩ := List.pairwise_cons.mp h₂
          have hab : a = b := by
            rcases List.mem_cons.mp ((h a).mp List.mem_cons_self) with e | ha₂
            · exact e
            · rcases List.mem_cons.mp ((h b).mpr List.mem_cons_self) with e | hb₁
              · exact e.symm
              · exact absurd (ha b hb₁) (String.lt_asymm (hb a ha₂))
          subst hab
          refine congrArg (a :: ·) (ih hr₁ hr₂ fun e => ⟨fun he => ?_, fun he => ?_⟩)
          · rcases List.mem_cons.mp ((h e).mp (List.mem_cons_of_mem _ he)) with e' | he'
            · exact absurd (ha e he) (e' ▸ String.lt_irrefl _)
            · exact he'
          · rcases List.mem_cons.mp ((h e).mpr (List.mem_cons_of_mem _ he)) with e' | he'
            · exact absurd (hb e he) (e' ▸ String.lt_irrefl _)
            · exact he'

/-- Maps with the same lookups are equal. -/
theorem ext_get? {m n : KeyMap α} (h : ∀ k, m.get? k = n.get? k) : m = n := by
  refine eq_of_entries_eq (eq_of_increasing_of_mem_iff m.increasing n.increasing ?_)
  rintro ⟨k, v⟩
  rw [mem_entries_iff, mem_entries_iff, h k]

end KeyMap

end ServingAdmin
