/-!
# Blank characters

The characters with the Unicode property White_Space, and the removal of blanks at
the ends of a text.  Setting values, selector blocks and table lines are trimmed by
this rule and not by the narrower one of ASCII.
-/

namespace ServingAdmin
namespace Text

universe u

/-- The characters with the property White_Space. -/
def isBlank (c : Char) : Bool :=
  let n := c.toNat
  (9 ≤ n && n ≤ 13) || n == 0x20 || n == 0x85 || n == 0xA0 || n == 0x1680 ||
    (0x2000 ≤ n && n ≤ 0x200A) || n == 0x2028 || n == 0x2029 || n == 0x202F ||
    n == 0x205F || n == 0x3000

/-- A list up to the last element that does not pass a test. -/
def dropEndWhile {α : Type u} (p : α → Bool) : List α → List α
  | [] => []
  | x :: rest =>
      match dropEndWhile p rest with
      | [] => if p x then [] else [x]
      | y :: kept => x :: y :: kept

/-- The characters up to the last that is not blank. -/
def trimEnd (s : List Char) : List Char := dropEndWhile isBlank s

/-- The characters from the first to the last that are not blank. -/
def trim (s : List Char) : List Char := trimEnd (s.dropWhile isBlank)

/-- A text without the blanks at its ends. -/
def trimmed (s : String) : String := String.ofList (trim s.toList)

section DropEndWhile

variable {α : Type u} {p : α → Bool}

/-- What is dropped at the end passes the test. -/
theorem exists_dropEndWhile_append (l : List α) :
    ∃ t, l = dropEndWhile p l ++ t ∧ ∀ x ∈ t, p x = true := by
  induction l with
  | nil => exact ⟨[], rfl, by simp⟩
  | cons x rest ih =>
      obtain ⟨t, ht, hp⟩ := ih
      rw [dropEndWhile]
      split
      · rename_i heq
        rw [heq, List.nil_append] at ht
        by_cases hx : p x = true
        · exact ⟨x :: t, by simp [hx, ht], by simpa [hx] using hp⟩
        · exact ⟨t, by simp [hx, ht], hp⟩
      · rename_i heq
        exact ⟨t, by rw [heq] at ht; simpa using ht, hp⟩

/-- The last element that is kept does not pass the test. -/
theorem not_of_getLast?_dropEndWhile {l : List α} {x : α}
    (h : (dropEndWhile p l).getLast? = some x) : p x = false := by
  induction l with
  | nil => simp [dropEndWhile] at h
  | cons y rest ih =>
      rw [dropEndWhile] at h
      split at h
      · by_cases hy : p y = true
        · simp [hy] at h
        · simp [hy] at h
          exact h ▸ by simpa using hy
      · rename_i heq
        rw [heq] at ih
        exact ih (by simpa using h)

end DropEndWhile

end Text
end ServingAdmin
