import ServingAdmin.Text.Blank
import ServingAdmin.Text.Digits

/-!
# Digits write numbers

The digits of a number write the number, without a zero in front unless it is zero.  Zeros in
front do not change what digits write, and zeros at the end, which a fraction does without,
multiply it with a power of ten.
-/

namespace ServingAdmin
namespace Text

theorem digitsValueFrom_eq
    (n : Nat)
    (s : List Char) :
    digitsValueFrom n s = Nat.ofDigitChars 10 s n := by
  rw [Nat.ofDigitChars_eq_foldl, digitsValueFrom]
  simp only [Nat.mul_comm]

theorem digitsValue_eq
    (s : List Char) :
    digitsValue s = Nat.ofDigitChars 10 s 0 :=
  digitsValueFrom_eq 0 s

@[simp] theorem digitsValue_nil :
    digitsValue [] = 0 :=
  rfl

/-- Digits behind others count the less the more of them there are. -/
theorem digitsValue_append
    (s t : List Char) :
    digitsValue (s ++ t) = digitsValue s * Nat.pow 10 t.length + digitsValue t := by
  simp only [digitsValue_eq]
  rw [Nat.ofDigitChars_append, Nat.ofDigitChars_eq_ofDigitChars_zero, Nat.mul_comm]
  rfl

theorem digitsValue_replicate_zero
    (n : Nat) :
    digitsValue (List.replicate n '0') = 0 := by
  rw [digitsValue_eq, Nat.ofDigitChars_replicate_zero, Nat.mul_zero]

/-- Zero is the only digit that writes zero. -/
theorem eq_zero_of_digitsValue
    {c : Char}
    (hc : c.isDigit = true)
    (h : digitsValue [c] = 0) :
    c = '0' := by
  have hleast : 48 ≤ c.toNat := (Char.isDigit_iff_toNat.mp hc).1
  have hvalue : digitsValue [c] = c.toNat - 48 := Nat.zero_add _
  refine Char.toNat_inj.mp ?_
  show c.toNat = 48
  omega

/-- Digits write a number below the power of ten that they are as many as. -/
theorem digitsValue_lt
    {s : List Char}
    (h : ∀ c ∈ s, c.isDigit = true) :
    digitsValue s < Nat.pow 10 s.length := by
  induction s with
  | nil => decide
  | cons c s ih =>
      obtain ⟨hc, hs⟩ := List.forall_mem_cons.mp h
      have hrest := ih hs
      have hdigit : digitsValue [c] ≤ 9 := by
        have hnine : c.toNat ≤ 57 := (Char.isDigit_iff_toNat.mp hc).2
        have hvalue : digitsValue [c] = c.toNat - 48 := Nat.zero_add _
        omega
      have happend : digitsValue (c :: s) = digitsValue [c] * Nat.pow 10 s.length + digitsValue s :=
        digitsValue_append [c] s
      have hfirst := Nat.mul_le_mul_right (Nat.pow 10 s.length) hdigit
      have hpow : Nat.pow 10 (c :: s).length = 10 * Nat.pow 10 s.length :=
        Nat.pow_succ'
      omega

section DigitsOf

/-- The digits of a number write it. -/
@[simp] theorem digitsValue_digitsOf
    (n : Nat) :
    digitsValue (digitsOf n) = n := by
  rw [digitsValue_eq, digitsOf, Nat.ofDigitChars_ten_toDigits]

theorem isDigit_of_mem_digitsOf
    {n : Nat}
    {c : Char}
    (h : c ∈ digitsOf n) :
    c.isDigit = true :=
  Nat.isDigit_of_mem_toDigits (by decide) (by decide) h

theorem digitsOf_ne_nil
    (n : Nat) :
    digitsOf n ≠ [] :=
  Nat.toDigits_ne_nil

/-- Only zero has a zero in front. -/
theorem eq_zero_of_head?_digitsOf
    {n : Nat}
    (h : (digitsOf n).head? = some '0') :
    n = 0 := by
  induction n using Nat.strongRecOn with
  | ind n ih =>
      rw [digitsOf, Nat.toDigits_eq_if (by decide)] at h
      split at h
      · rename_i hlt
        have hdigit : n.digitChar = '0' := by
          simpa using h
        exact Nat.digitChar_eq_zero.mp hdigit
      · rename_i hge
        -- the first digit is that of the number without its last digit
        obtain ⟨c, rest, hn⟩ := List.exists_cons_of_ne_nil (digitsOf_ne_nil (n / 10))
        have hfirst : (digitsOf (n / 10)).head? = some '0' := by
          rw [digitsOf] at hn ⊢
          simpa [hn] using h
        have hzero := ih (n / 10) (by omega) hfirst
        omega

end DigitsOf

section PaddedDigits

variable {width n : Nat}

theorem isDigit_of_mem_paddedDigits
    {c : Char}
    (h : c ∈ paddedDigits width n) :
    c.isDigit = true := by
  rcases List.mem_append.mp h with hzero | hdigit
  · rw [List.eq_of_mem_replicate hzero]
    rfl
  · exact isDigit_of_mem_digitsOf hdigit

/-- Zeros in front do not change what digits write. -/
@[simp] theorem digitsValue_paddedDigits :
    digitsValue (paddedDigits width n) = n := by
  rw [paddedDigits, digitsValue_append, digitsValue_replicate_zero, digitsValue_digitsOf,
    Nat.zero_mul, Nat.zero_add]

theorem length_paddedDigits
    (hwidth : 0 < width)
    (h : n < Nat.pow 10 width) :
    (paddedDigits width n).length = width := by
  have hle : (digitsOf n).length ≤ width :=
    (Nat.length_toDigits_le_iff (by decide) hwidth).mpr h
  rw [paddedDigits, List.length_append, List.length_replicate]
  omega

end PaddedDigits

/-- Digits are their part without zeros at the end and these zeros. -/
theorem exists_zeros
    (s : List Char) :
    ∃ zeros, s = dropEndWhile (· = '0') s ++ List.replicate zeros '0' := by
  obtain ⟨t, ht, hzero⟩ := exists_dropEndWhile_append (p := (· = '0')) s
  refine ⟨t.length, ?_⟩
  have hall : t = List.replicate t.length '0' :=
    List.eq_replicate_of_mem fun c hc => by simpa using hzero c hc
  rwa [← hall]

end Text
end ServingAdmin
