import Mathlib.Data.List.Basic

/-!
# Separators of more than one character

A text is cut into pieces wherever a separator begins.  Separators are found from the left, and
what one of them takes up is no part of another (`splitWhere`).  In front of a text, a piece in
which no separator begins is a piece, or the beginning of one (`splitWhere_append`).

The separator can be a text of its own (`splitAtText`).  Pieces that lack its last character are
got back when they are put together with separators of two different characters between them.
-/

namespace ServingAdmin
namespace Text

section Cutting

/-- The pieces between the separators of a text.  What is given is the length of the separator that
a text begins with, which is zero if it begins with none. -/
def splitWhere
    (separatorLength : List Char → Nat) :
    List Char →
    List (List Char)
  | [] => [[]]
  | c :: rest =>
      if separatorLength (c :: rest) = 0 then
        (splitWhere separatorLength rest).modifyHead (c :: ·)
      else
        [] :: splitWhere separatorLength ((c :: rest).drop (separatorLength (c :: rest)))
termination_by s => s.length

variable {separatorLength : List Char → Nat} {piece separator rest : List Char}

/-- A piece belongs to what follows if no separator begins in it. -/
theorem splitWhere_append
    (hnone : ∀ t, t <:+ piece → t ≠ [] → separatorLength (t ++ rest) = 0) :
    splitWhere separatorLength (piece ++ rest) =
      (splitWhere separatorLength rest).modifyHead (piece ++ ·) := by
  induction piece with
  | nil =>
      change splitWhere separatorLength rest = (splitWhere separatorLength rest).modifyHead id
      rw [List.modifyHead_id, id]
  | cons c piece ih =>
      have hc : separatorLength (c :: (piece ++ rest)) = 0 :=
        hnone (c :: piece) List.suffix_rfl (List.cons_ne_nil _ _)
      have hpiece := ih fun t ht => hnone t (ht.trans (List.suffix_cons c piece))
      rw [List.cons_append, splitWhere, if_pos hc, hpiece, List.modifyHead_modifyHead]
      rfl

/-- A text is its only piece if no separator begins in it. -/
theorem splitWhere_eq_singleton
    (hnone : ∀ t, t <:+ piece → t ≠ [] → separatorLength t = 0) :
    splitWhere separatorLength piece = [piece] := by
  have happend : ∀ t, t <:+ piece → t ≠ [] → separatorLength (t ++ []) = 0 := by
    simpa using hnone
  have hpiece := splitWhere_append happend
  rw [List.append_nil] at hpiece
  rw [hpiece, splitWhere, List.modifyHead_cons, List.append_nil]

/-- A separator ends the piece in front of it. -/
theorem splitWhere_append_separator
    (hnone : ∀ t, t <:+ piece → t ≠ [] → separatorLength (t ++ (separator ++ rest)) = 0)
    (hseparator : separatorLength (separator ++ rest) = separator.length)
    (hne : separator ≠ []) :
    splitWhere separatorLength (piece ++ (separator ++ rest)) =
      piece :: splitWhere separatorLength rest := by
  obtain ⟨c, more, rfl⟩ := List.exists_cons_of_ne_nil hne
  have hpos : separatorLength (c :: (more ++ rest)) ≠ 0 := by
    rw [← List.cons_append, hseparator]
    exact Nat.succ_ne_zero _
  rw [splitWhere_append hnone, List.cons_append, splitWhere, if_neg hpos, ← List.cons_append,
    hseparator, List.drop_left, List.modifyHead_cons, List.append_nil]

end Cutting

section Texts

/-- The length of a separator where a text begins with it. -/
def lengthAtFront
    (separator s : List Char) :
    Nat :=
  if separator.isPrefixOf s then separator.length else 0

/-- The pieces of a text between the occurrences of another. -/
def splitAtText
    (separator s : List Char) :
    List (List Char) :=
  splitWhere (lengthAtFront separator) s

theorem lengthAtFront_separator
    (separator rest : List Char) :
    lengthAtFront separator (separator ++ rest) = separator.length :=
  if_pos (List.isPrefixOf_iff_prefix.mpr (List.prefix_append _ _))

/-- In front of a separator that a text begins with is an empty piece. -/
theorem splitAtText_separator_append
    {separator : List Char}
    (hne : separator ≠ [])
    (rest : List Char) :
    splitAtText separator (separator ++ rest) = [] :: splitAtText separator rest := by
  have hnone : ∀ t, t <:+ [] → t ≠ [] → lengthAtFront separator (t ++ (separator ++ rest)) = 0 :=
    fun t ht htne => absurd (List.suffix_nil.mp ht) htne
  exact splitWhere_append_separator hnone (lengthAtFront_separator separator rest) hne

variable {a b : Char}

/-- A separator of two characters does not begin in a text that lacks the second. -/
theorem lengthAtFront_append
    {t rest : List Char}
    (ht : t ≠ [])
    (hb : b ∉ t)
    (hrest : rest.head? ≠ some b) :
    lengthAtFront [a, b] (t ++ rest) = 0 := by
  obtain ⟨c, t, rfl⟩ := List.exists_cons_of_ne_nil ht
  refine if_neg ?_
  rw [List.isPrefixOf_iff_prefix, List.cons_append, List.cons_prefix_cons]
  rintro ⟨_, hfront⟩
  cases t with
  | nil =>
      obtain ⟨more, rfl⟩ := hfront
      exact hrest rfl
  | cons d t =>
      obtain ⟨rfl, _⟩ := List.cons_prefix_cons.mp hfront
      simp at hb

/-- Pieces that lack the second character of a separator are got back from between separators. -/
theorem splitAtText_intercalate
    (hab : a ≠ b)
    {pieces : List (List Char)}
    (hne : pieces ≠ [])
    (hpieces : ∀ piece ∈ pieces, b ∉ piece) :
    splitAtText [a, b] ([a, b].intercalate pieces) = pieces := by
  induction pieces with
  | nil => exact absurd rfl hne
  | cons piece others ih =>
      obtain ⟨hpiece, hothers⟩ := List.forall_mem_cons.mp hpieces
      cases others with
      | nil =>
          rw [List.intercalate_singleton]
          refine splitWhere_eq_singleton fun t ht htne => ?_
          have hlength : lengthAtFront [a, b] (t ++ []) = 0 :=
            lengthAtFront_append htne (fun hb => hpiece (ht.mem hb)) (by simp)
          rwa [List.append_nil] at hlength
      | cons next others =>
          have hnext := ih (List.cons_ne_nil _ _) hothers
          rw [List.intercalate_cons_cons, List.append_assoc]
          rw [splitAtText] at hnext ⊢
          rw [splitWhere_append_separator ?_ ?_ (List.cons_ne_nil _ _), hnext]
          · intro t ht htne
            exact lengthAtFront_append htne (fun hb => hpiece (ht.mem hb)) (by simpa using hab)
          · exact lengthAtFront_separator _ _

end Texts

end Text
end ServingAdmin
