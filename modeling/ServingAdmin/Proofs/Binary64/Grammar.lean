import Mathlib.Data.String.Basic
import ServingAdmin.Binary64.Literal
import ServingAdmin.Proofs.Duration.Reader

/-!
# How decimals are written

The texts of decimal literals, without reading them: a sign, if there is one, with a word in letters
of any case or with a number that an exponent may follow.  The reader takes exactly these texts,
each for what it says (`Literal.read_eq_ok_iff`), and finds the same fault in all others that are
not empty.

Numbers and signs are those of durations.
-/

namespace ServingAdmin
namespace Binary64

open Text
open Duration (BeginsNumber Digits Number Signed)

namespace Literal

/-- What may stand behind the digits of a number, and the power of ten that it asks for. -/
inductive Exponent : List Char → Int → Prop
  | none :
      Exponent [] 0
  | some
      {mark : Char}
      {s digits : List Char}
      {negative : Bool} :
      mark = 'e' ∨ mark = 'E' →
        Signed s negative digits →
          Digits digits →
            digits ≠ [] →
              Exponent (mark :: s)
                (if negative then -(digitsValue digits : Int) else digitsValue digits)

/-- A text behind a sign that is written for a literal. -/
inductive Unsigned (negative : Bool) : List Char → Literal → Prop
  | nan
      {s : List Char} :
      s.map Char.toLower = "nan".toList →
        Unsigned negative s .nan
  | infinite
      {s : List Char} :
      (s.map Char.toLower = "inf".toList ∨ s.map Char.toLower = "infinity".toList) →
        Unsigned negative s (.infinite negative)
  | decimal
      {number whole fraction exponent : List Char}
      {e : Int} :
      Number number whole fraction →
        Exponent exponent e →
          Unsigned negative (number ++ exponent)
            (.decimal negative (digitsValue (whole ++ fraction)) (e - fraction.length))

/-- A text is written for a literal. -/
def WrittenAs
    (l : Literal)
    (raw : String) :
    Prop :=
  ∃ negative s, Signed raw.toList negative s ∧ Unsigned negative s l

section Parts

/-- An exponent does not go on with the number in front of it. -/
theorem Exponent.not_beginsNumber
    {s : List Char}
    {e : Int}
    (h : Exponent s e) :
    ¬ BeginsNumber s := by
  cases h with
  | none => exact fun h => h
  | some hmark _ _ _ => rcases hmark with rfl | rfl <;> rintro (h | h) <;> cases h

theorem readExponent_eq_some_iff
    {s : List Char}
    {e : Int} :
    readExponent s = some e ↔ Exponent s e := by
  constructor
  · intro h
    unfold readExponent at h
    split at h
    · cases h
      exact .none
    · rename_i mark rest
      split at h
      · rename_i hmark
        rcases hsplit : splitSign rest with ⟨negative, digits⟩
        simp only [hsplit] at h
        split at h
        · rename_i hdigits
          cases h
          exact .some hmark (Duration.splitSign_eq_iff.mp hsplit)
            (List.all_eq_true.mp hdigits.2) hdigits.1
        · cases h
      · cases h
  · intro h
    cases h with
    | none => rfl
    | some hmark hsigned hdigits hne =>
        rw [readExponent, if_pos hmark, Duration.splitSign_eq_iff.mpr hsigned]
        exact if_pos ⟨hne, List.all_eq_true.mpr hdigits⟩

/-- What a number is read from once its digits have been split off. -/
theorem readDecimal_of_split
    {negative : Bool}
    {s whole fraction rest : List Char}
    (hwhole : (splitDigits s).1 = whole)
    (hfraction : splitFraction (splitDigits s).2 = (fraction, rest)) :
    readDecimal negative s =
      if whole = [] ∧ fraction = [] then none
      else
        (readExponent rest).map fun e =>
          decimal negative (digitsValue (whole ++ fraction)) (e - fraction.length) := by
  have hdigits : fraction = (splitFraction (splitDigits s).2).1 := by
    rw [hfraction]
  have hrest : rest = (splitFraction (splitDigits s).2).2 := by
    rw [hfraction]
  subst hwhole hdigits hrest
  rfl

theorem readDecimal_of_number
    {negative : Bool}
    {number whole fraction exponent : List Char}
    {e : Int}
    (hnumber : Number number whole fraction)
    (hexponent : Exponent exponent e) :
    readDecimal negative (number ++ exponent) =
      some (decimal negative (digitsValue (whole ++ fraction)) (e - fraction.length)) := by
  obtain ⟨hwhole, hfraction⟩ := Duration.split_number hnumber hexponent.not_beginsNumber
  rw [readDecimal_of_split hwhole hfraction, if_neg hnumber.hasDigit,
    readExponent_eq_some_iff.mpr hexponent]
  rfl

theorem unsigned_of_readDecimal
    {negative : Bool}
    {s : List Char}
    {l : Literal}
    (h : readDecimal negative s = some l) :
    Unsigned negative s l := by
  obtain ⟨whole, fraction, rest, hwhole, hfraction⟩ := Duration.exists_split s
  rw [readDecimal_of_split hwhole hfraction] at h
  split at h
  · cases h
  · rename_i hdigit
    obtain ⟨number, rfl, hnumber⟩ :=
      Duration.exists_number hwhole hfraction (not_and_or.mp hdigit)
    obtain ⟨e, hexponent, rfl⟩ := Option.map_eq_some_iff.mp h
    exact .decimal hnumber (readExponent_eq_some_iff.mp hexponent)

end Parts

section Words

theorem beginsNumber_map_toLower
    {s : List Char}
    (h : BeginsNumber s) :
    BeginsNumber (s.map Char.toLower) := by
  cases s with
  | nil => exact h
  | cons c rest =>
      have hsame : c.toLower = c := by
        rcases h with rfl | hdigit
        · rfl
        · unfold Char.toLower
          simp [Char.isDigit, UInt32.le_iff_toNat_le] at hdigit ⊢
          omega
      rw [List.map_cons, hsame]
      exact h

/-- The words for what is not a number of digits. -/
def words : List String := ["nan", "inf", "infinity"]

theorem not_beginsNumber_of_word
    {word : String}
    (h : word ∈ words) :
    ¬ BeginsNumber word.toList := by
  simp only [words, List.mem_cons, List.not_mem_nil, or_false] at h
  rcases h with rfl | rfl | rfl <;> rintro (h | h) <;> cases h

/-- What begins with a number is none of the words. -/
theorem map_toLower_ne
    {s word : List Char}
    (hs : BeginsNumber s)
    (hword : ¬ BeginsNumber word) :
    s.map Char.toLower ≠ word := by
  rintro rfl
  exact hword (beginsNumber_map_toLower hs)

theorem readUnsigned_eq_some_iff
    {negative : Bool}
    {s : List Char}
    {l : Literal} :
    readUnsigned negative s = some l ↔ Unsigned negative s l := by
  simp only [readUnsigned, String.ofList_eq]
  constructor
  · intro h
    split at h
    · rename_i hnan
      cases h
      exact .nan hnan
    · split at h
      · rename_i hinfinite
        cases h
        exact .infinite hinfinite
      · exact unsigned_of_readDecimal h
  · intro h
    cases h with
    | nan hnan => rw [if_pos hnan]
    | infinite hinfinite =>
        have hnan : s.map Char.toLower ≠ "nan".toList := by
          rcases hinfinite with h | h <;> rw [h] <;> decide
        rw [if_neg hnan, if_pos hinfinite]
    | @decimal number _ _ exponent _ hnumber hexponent =>
        have hbegins := hnumber.beginsNumber exponent
        have hword : ∀ word ∈ words, (number ++ exponent).map Char.toLower ≠ word.toList :=
          fun _ hword => map_toLower_ne hbegins (not_beginsNumber_of_word hword)
        rw [if_neg (hword "nan" (by decide)),
          if_neg (not_or.mpr ⟨hword "inf" (by decide), hword "infinity" (by decide)⟩),
          readDecimal_of_number hnumber hexponent]

end Words

theorem Unsigned.ne_nil
    {negative : Bool}
    {s : List Char}
    {l : Literal}
    (h : Unsigned negative s l) :
    s ≠ [] := by
  rintro rfl
  have hread := readUnsigned_eq_some_iff.mpr h
  cases hread

/-- The texts that are taken are those that are written for a literal. -/
theorem read_eq_ok_iff
    {raw : String}
    {l : Literal} :
    read raw = .ok l ↔ l.WrittenAs raw := by
  rcases hsplit : splitSign raw.toList with ⟨negative, s⟩
  have hsigned := Duration.splitSign_eq_iff.mp hsplit
  unfold read
  simp only [hsplit]
  constructor
  · intro h
    split at h
    · cases h
    · split at h
      · rename_i hread
        cases h
        exact ⟨negative, s, hsigned, readUnsigned_eq_some_iff.mp hread⟩
      · cases h
  · rintro ⟨negative', s', hsigned', hunsigned⟩
    cases hsplit.symm.trans (Duration.splitSign_eq_iff.mpr hsigned')
    have hempty : ¬ raw.isEmpty = true := by
      intro hempty
      rw [String.isEmpty_iff] at hempty
      subst hempty
      cases hsplit
      exact hunsigned.ne_nil rfl
    rw [if_neg hempty, readUnsigned_eq_some_iff.mpr hunsigned]

/-- The fault that is found tells the empty text from the others. -/
theorem fault_of_read
    {raw : String}
    {fault : LiteralFault}
    (h : read raw = .error fault) :
    fault = if raw = "" then .empty else .malformed := by
  unfold read at h
  split at h
  · rename_i hempty
    cases h
    rw [if_pos (String.isEmpty_iff.mp hempty)]
  · rename_i hempty
    have hne : raw ≠ "" := fun hraw => hempty (String.isEmpty_iff.mpr hraw)
    rcases splitSign raw.toList with ⟨negative, s⟩
    simp only at h
    split at h
    · cases h
    · cases h
      rw [if_neg hne]

/-- The texts that are not taken are those that are written for no literal. -/
theorem read_eq_error_iff
    {raw : String}
    {fault : LiteralFault} :
    read raw = .error fault ↔
      (∀ l : Literal, ¬ l.WrittenAs raw) ∧ fault = if raw = "" then .empty else .malformed := by
  constructor
  · intro h
    refine ⟨fun l hwritten => ?_, fault_of_read h⟩
    cases h.symm.trans (read_eq_ok_iff.mpr hwritten)
  · rintro ⟨hnone, rfl⟩
    cases hread : read raw with
    | ok l => exact absurd (read_eq_ok_iff.mp hread) (hnone l)
    | error fault => rw [fault_of_read hread]

end Literal

/-- A decimal is read for the value of the literal that it is written for. -/
theorem read_eq_ok_iff
    {raw : String}
    {v : Binary64} :
    read raw = .ok v ↔ ∃ l : Literal, l.WrittenAs raw ∧ l.value = v := by
  simp only [← Literal.read_eq_ok_iff, read]
  cases Literal.read raw with
  | error _ => simp [Except.map]
  | ok _ => simp [Except.map]

theorem read_eq_error_iff
    {raw : String}
    {fault : LiteralFault} :
    read raw = .error fault ↔
      (∀ l : Literal, ¬ l.WrittenAs raw) ∧ fault = if raw = "" then .empty else .malformed := by
  rw [← Literal.read_eq_error_iff, read]
  cases Literal.read raw with
  | error _ => simp [Except.map]
  | ok _ => simp [Except.map]

end Binary64
end ServingAdmin
