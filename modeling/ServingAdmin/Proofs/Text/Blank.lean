import Mathlib.Data.List.TakeWhile
import ServingAdmin.Text.Blank

/-!
# Blanks at the ends of a text

A text in which nothing is blank is not changed by trimming it, and blanks that stand around a text
make no difference to what it is trimmed to (`trim_padded`).  What trimming takes away are blanks
around what it keeps.
-/

namespace ServingAdmin
namespace Text

/-- Characters none of which is blank. -/
def Unblank
    (s : List Char) :
    Prop :=
  ∀ c ∈ s, isBlank c = false

instance (s : List Char) : Decidable (Unblank s) :=
  List.decidableBAll (fun c => isBlank c = false) s

@[simp] theorem unblank_nil :
    Unblank [] := by
  simp [Unblank]

@[simp] theorem unblank_cons
    {c : Char}
    {s : List Char} :
    Unblank (c :: s) ↔ isBlank c = false ∧ Unblank s := by
  simp [Unblank]

@[simp] theorem unblank_append
    {s t : List Char} :
    Unblank (s ++ t) ↔ Unblank s ∧ Unblank t := by
  simp [Unblank, or_imp, forall_and]

theorem isBlank_of_isDigit
    {c : Char}
    (h : c.isDigit = true) :
    isBlank c = false := by
  simp [Char.isDigit, isBlank, UInt32.le_iff_toNat_le] at h ⊢
  omega

theorem unblank_of_isDigit
    {s : List Char}
    (h : ∀ c ∈ s, c.isDigit = true) :
    Unblank s :=
  fun c hc => isBlank_of_isDigit (h c hc)

/-- What stands in front of something that is kept is kept too. -/
theorem dropEndWhile_append_of_ne_nil
    {p : Char → Bool}
    {t : List Char}
    (s : List Char)
    (ht : dropEndWhile p t ≠ []) :
    dropEndWhile p (s ++ t) = s ++ dropEndWhile p t := by
  induction s with
  | nil => rfl
  | cons c s ih =>
      have hne : s ++ dropEndWhile p t ≠ [] := List.append_ne_nil_of_right_ne_nil s ht
      obtain ⟨d, kept, hkept⟩ := List.exists_cons_of_ne_nil hne
      rw [List.cons_append, dropEndWhile, ih, hkept]
      rw [List.cons_append, hkept]

theorem dropEndWhile_eq_self_of_getLast?
    {p : Char → Bool}
    {s : List Char}
    (h : ∀ c ∈ s.getLast?, p c = false) :
    dropEndWhile p s = s := by
  rcases List.eq_nil_or_concat s with rfl | ⟨front, c, rfl⟩
  · rfl
  · have hc : p c = false := h c (by simp)
    have hkept : dropEndWhile p [c] = [c] := by
      simp [dropEndWhile, hc]
    rw [List.concat_eq_append, dropEndWhile_append_of_ne_nil front (by simp [hkept]), hkept]

theorem dropEndWhile_eq_self
    {p : Char → Bool}
    {s : List Char}
    (h : ∀ c ∈ s, p c = false) :
    dropEndWhile p s = s :=
  dropEndWhile_eq_self_of_getLast? fun c hc => h c (List.mem_of_getLast? hc)

theorem trim_eq_self
    {s : List Char}
    (h : Unblank s) :
    trim s = s := by
  have hfront : s.dropWhile isBlank = s := by
    cases s with
    | nil => rfl
    | cons c s => simp [(unblank_cons.mp h).1]
  rw [trim, hfront, trimEnd, dropEndWhile_eq_self h]

theorem trimmed_eq_self
    {s : String}
    (h : Unblank s.toList) :
    trimmed s = s := by
  rw [trimmed, trim_eq_self h, String.ofList_toList]

/-- Characters all of which are blank. -/
def Blank
    (s : List Char) :
    Prop :=
  ∀ c ∈ s, isBlank c = true

instance (s : List Char) : Decidable (Blank s) :=
  List.decidableBAll (fun c => isBlank c = true) s

theorem blank_append
    {s t : List Char} :
    Blank (s ++ t) ↔ Blank s ∧ Blank t :=
  List.forall_mem_append

theorem dropEndWhile_eq_nil
    {p : Char → Bool}
    {s : List Char}
    (hs : ∀ c ∈ s, p c = true) :
    dropEndWhile p s = [] := by
  induction s with
  | nil => rfl
  | cons c s ih =>
      obtain ⟨hc, hs⟩ := List.forall_mem_cons.mp hs
      rw [dropEndWhile, ih hs]
      exact if_pos hc

theorem dropEndWhile_append
    {p : Char → Bool}
    {t : List Char}
    (s : List Char)
    (ht : ∀ c ∈ t, p c = true) :
    dropEndWhile p (s ++ t) = dropEndWhile p s := by
  induction s with
  | nil => exact dropEndWhile_eq_nil ht
  | cons c s ih => rw [List.cons_append, dropEndWhile, ih, dropEndWhile]

/-- Trimming leaves something of a text that is not all blank. -/
theorem trimEnd_ne_nil
    {s : List Char}
    (h : ¬ Blank s) :
    trimEnd s ≠ [] := by
  intro hnil
  obtain ⟨back, hs, hback⟩ := exists_dropEndWhile_append (p := isBlank) s
  rw [show dropEndWhile isBlank s = [] from hnil, List.nil_append] at hs
  exact h (hs ▸ hback)

/-- Trimming takes away blanks at the end, and nothing in front of what stays. -/
theorem trimEnd_append
    (s t : List Char) :
    trimEnd (s ++ t) = if Blank t then trimEnd s else s ++ trimEnd t := by
  split
  · rename_i ht
    exact dropEndWhile_append s ht
  · rename_i ht
    exact dropEndWhile_append_of_ne_nil s (trimEnd_ne_nil ht)

/-- Blanks around a text are trimmed with those in it. -/
theorem trim_padded
    {front back : List Char}
    (s : List Char)
    (hfront : Blank front)
    (hback : Blank back) :
    trim (front ++ s ++ back) = trim s := by
  rw [trim, List.append_assoc, List.dropWhile_append_of_pos hfront, List.dropWhile_append]
  split
  · rename_i hs
    have hdrop : back.dropWhile isBlank = [] := List.dropWhile_eq_nil_iff.mpr hback
    rw [hdrop, trim, List.isEmpty_iff.mp hs]
  · exact dropEndWhile_append _ hback

/-- What trimming takes away are blanks around what it keeps. -/
theorem exists_padded
    (s : List Char) :
    ∃ front back, Blank front ∧ Blank back ∧ s = front ++ trim s ++ back := by
  obtain ⟨back, hdrop, hback⟩ := exists_dropEndWhile_append (p := isBlank) (s.dropWhile isBlank)
  refine ⟨s.takeWhile isBlank, back, List.all_eq_true.mp List.all_takeWhile, hback, ?_⟩
  calc
    s = s.takeWhile isBlank ++ s.dropWhile isBlank := List.takeWhile_append_dropWhile.symm
    _ = s.takeWhile isBlank ++ (trim s ++ back) := congrArg _ hdrop
    _ = s.takeWhile isBlank ++ trim s ++ back := (List.append_assoc _ _ _).symm

theorem trim_trim
    (s : List Char) :
    trim (trim s) = trim s := by
  obtain ⟨front, back, hfront, hback, hs⟩ := exists_padded s
  calc
    trim (trim s) = trim (front ++ trim s ++ back) := (trim_padded _ hfront hback).symm
    _ = trim s := by rw [← hs]

end Text
end ServingAdmin
