/-!
# Pieces of a text

A text split at every occurrence of a character.  There is one piece more than there
are separators, and a text without separators is its only piece.
-/

namespace ServingAdmin
namespace Text

/-- The pieces between the occurrences of a separator. -/
def splitAt (sep : Char) : List Char → List (List Char)
  | [] => [[]]
  | c :: rest =>
      if c = sep then [] :: splitAt sep rest
      else
        match splitAt sep rest with
        | piece :: pieces => (c :: piece) :: pieces
        | [] => [[c]]

theorem splitAt_ne_nil (sep : Char) (s : List Char) : splitAt sep s ≠ [] := by
  cases s with
  | nil => simp [splitAt]
  | cons c rest =>
      rw [splitAt]
      split
      · simp
      · split <;> simp

/-- Pieces have no separator in them. -/
theorem not_mem_of_mem_splitAt {sep : Char} {s piece : List Char} (h : piece ∈ splitAt sep s) :
    sep ∉ piece := by
  induction s generalizing piece with
  | nil => simp_all [splitAt]
  | cons c rest ih =>
      rw [splitAt] at h
      split at h
      · rcases List.mem_cons.mp h with h | h
        · simp [h]
        · exact ih h
      · rename_i hc
        split at h
        · rename_i first pieces heq
          rcases List.mem_cons.mp h with h | h
          · have := ih (heq ▸ List.mem_cons_self)
            simp [h, this, Ne.symm hc]
          · exact ih (heq ▸ List.mem_cons_of_mem _ h)
        · rename_i heq
          exact absurd heq (splitAt_ne_nil sep rest)

/-- Putting the separators back between the pieces gives the text. -/
theorem intercalate_splitAt (sep : Char) (s : List Char) :
    [sep].intercalate (splitAt sep s) = s := by
  induction s with
  | nil => simp [splitAt, List.intercalate]
  | cons c rest ih =>
      rw [splitAt]
      split
      · rename_i hc
        obtain ⟨p, ps, hps⟩ := List.exists_cons_of_ne_nil (splitAt_ne_nil sep rest)
        rw [hps] at ih ⊢
        subst hc
        simpa [List.intercalate, List.intersperse] using ih
      · split
        · rename_i p ps hps
          rw [hps] at ih
          cases ps with
          | nil => simpa [List.intercalate] using ih
          | cons q qs => simpa [List.intercalate, List.intersperse] using ih
        · rename_i heq
          exact absurd heq (splitAt_ne_nil sep rest)

end Text
end ServingAdmin
