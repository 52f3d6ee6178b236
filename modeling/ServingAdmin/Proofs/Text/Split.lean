import ServingAdmin.Text.Split

/-!
# Splitting a text and putting it together

A text is split at a separator into pieces that have none of it, and these are put together again
with a separator before each of them or between them.  Splitting and putting together undo each
other.
-/

namespace ServingAdmin
namespace Text

/-- Pieces with separators between them are a piece and the others with a separator before each. -/
theorem intercalate_eq_append
    (separator first : List Char)
    (pieces : List (List Char)) :
    separator.intercalate (first :: pieces) = first ++ pieces.flatMap (separator ++ ·) := by
  induction pieces generalizing first with
  | nil => simp
  | cons piece rest ih =>
      rw [List.intercalate_cons_cons, ih piece]
      simp

theorem intercalate_cons
    (sep : Char)
    (first : List Char)
    (pieces : List (List Char)) :
    [sep].intercalate (first :: pieces) = first ++ pieces.flatMap (sep :: ·) :=
  intercalate_eq_append [sep] first pieces

theorem intercalate_append_cons
    (sep : Char)
    (front : List (List Char))
    (last : List Char)
    (back : List (List Char)) :
    [sep].intercalate (front ++ last :: back) =
      front.flatMap (· ++ [sep]) ++ (last ++ back.flatMap (sep :: ·)) := by
  induction front with
  | nil => exact intercalate_cons sep last back
  | cons piece front ih =>
      rw [List.cons_append, List.intercalate_cons_of_ne_nil (by simp), ih]
      simp

/-- A text up to the first separator is a piece. -/
theorem splitAt_append_of_not_mem
    {sep : Char}
    {s rest piece : List Char}
    {pieces : List (List Char)}
    (hs : sep ∉ s)
    (hrest : splitAt sep rest = piece :: pieces) :
    splitAt sep (s ++ rest) = (s ++ piece) :: pieces := by
  induction s with
  | nil => exact hrest
  | cons c s ih =>
      rw [List.mem_cons, not_or] at hs
      rw [List.cons_append, splitAt, if_neg (Ne.symm hs.1), ih hs.2]
      rfl

/-- A change of characters that keeps the separators, and makes no others, changes the pieces. -/
theorem splitAt_map
    {sep : Char}
    {f : Char → Char}
    (hf : ∀ c, f c = sep ↔ c = sep)
    (s : List Char) :
    splitAt sep (s.map f) = (splitAt sep s).map (·.map f) := by
  induction s with
  | nil => rfl
  | cons c s ih =>
      obtain ⟨piece, pieces, hs⟩ := List.exists_cons_of_ne_nil (splitAt_ne_nil sep s)
      rw [List.map_cons, splitAt, splitAt, ih, hs]
      by_cases hc : c = sep
      · rw [if_pos ((hf c).mpr hc), if_pos hc]
        rfl
      · rw [if_neg fun h => hc ((hf c).mp h), if_neg hc]
        rfl

/-- There is one piece more than there are separators. -/
theorem length_splitAt
    (sep : Char)
    (s : List Char) :
    (splitAt sep s).length = s.count sep + 1 := by
  induction s with
  | nil => rfl
  | cons c s ih =>
      obtain ⟨piece, pieces, hs⟩ := List.exists_cons_of_ne_nil (splitAt_ne_nil sep s)
      rw [hs] at ih
      rw [splitAt, hs]
      by_cases hc : c = sep
      · rw [if_pos hc, hc, List.count_cons_self, ← ih]
        rfl
      · rw [if_neg hc, List.count_cons_of_ne hc, ← ih]
        rfl

/-- A path splits into the segments it is made of. -/
theorem splitAt_flatMap_cons
    {sep : Char}
    {segments : List (List Char)}
    (h : ∀ segment ∈ segments, sep ∉ segment) :
    splitAt sep (segments.flatMap (sep :: ·)) = [] :: segments := by
  induction segments with
  | nil => rfl
  | cons segment rest ih =>
      have hrest := ih fun other hother => h other (List.mem_cons_of_mem _ hother)
      rw [List.flatMap_cons, List.cons_append, splitAt, if_pos rfl,
        splitAt_append_of_not_mem (h segment List.mem_cons_self) hrest, List.append_nil]

/-- Pieces are got back from between separators. -/
theorem splitAt_intercalate
    {sep : Char}
    {pieces : List (List Char)}
    (hne : pieces ≠ [])
    (h : ∀ piece ∈ pieces, sep ∉ piece) :
    splitAt sep ([sep].intercalate pieces) = pieces := by
  obtain ⟨first, rest, rfl⟩ := List.exists_cons_of_ne_nil hne
  obtain ⟨hfirst, hrest⟩ := List.forall_mem_cons.mp h
  rw [intercalate_cons, splitAt_append_of_not_mem hfirst (splitAt_flatMap_cons hrest),
    List.append_nil]

/-- A path has as many separators as segments. -/
theorem count_flatMap_cons
    {sep : Char}
    {segments : List (List Char)}
    (h : ∀ segment ∈ segments, sep ∉ segment) :
    (segments.flatMap (sep :: ·)).count sep = segments.length := by
  induction segments with
  | nil => rfl
  | cons segment rest ih =>
      have hsegment := List.count_eq_zero.mpr (h segment List.mem_cons_self)
      have hrest := ih fun other hother => h other (List.mem_cons_of_mem _ hother)
      rw [List.flatMap_cons, List.count_append, List.count_cons_self, hsegment, hrest,
        List.length_cons]
      omega

/-- A character of a text is the separator or is in a piece. -/
theorem eq_or_mem_splitAt
    (sep : Char)
    {c : Char}
    {s : List Char}
    (h : c ∈ s) :
    c = sep ∨ ∃ piece ∈ splitAt sep s, c ∈ piece := by
  obtain ⟨first, rest, hsplit⟩ := List.exists_cons_of_ne_nil (splitAt_ne_nil sep s)
  rw [← intercalate_splitAt sep s, hsplit, intercalate_cons] at h
  rcases List.mem_append.mp h with hfirst | hrest
  · exact Or.inr ⟨first, hsplit ▸ List.mem_cons_self, hfirst⟩
  · obtain ⟨piece, hpiece, hmem⟩ := List.mem_flatMap.mp hrest
    rcases List.mem_cons.mp hmem with hsep | hmem
    · exact Or.inl hsep
    · exact Or.inr ⟨piece, hsplit ▸ List.mem_cons_of_mem _ hpiece, hmem⟩

end Text
end ServingAdmin
