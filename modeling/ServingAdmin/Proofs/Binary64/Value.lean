import ServingAdmin.Proofs.Binary64.Grammar
import ServingAdmin.Proofs.Binary64.Rounding

/-!
# The number that a decimal is written for

A decimal is written for the number of the format that is nearest to its exact value, and for an
infinity if this number is past the range.  That the reader decides very large and very small values
without writing their powers of ten out changes nothing of this (`Literal.value_decimal`), so it
reads each text as the number for which it is written (`read_eq_ok_iff_denotes`).
-/

namespace ServingAdmin
namespace Binary64

/-- A power of ten that is past the range, while its reciprocal is at most a quarter of a unit. -/
theorem exists_tenPow :
    ∃ k ≤ 401, unitsLimit ≤ Nat.pow 10 k * unitsPerOne ∧ 2 * (2 * unitsPerOne) ≤ Nat.pow 10 k :=
  ⟨401, by decide, by decide +kernel, by decide +kernel⟩

theorem exists_unitsLimit_eq :
    ∃ k, 52 ≤ k ∧ unitsLimit = Nat.pow 2 k :=
  ⟨2098, by decide, by decide +kernel⟩

-- written out, the counts of units would be compared digit by digit
attribute [local irreducible] unitsPerOne unitsLimit

/-- The exact count of units of digits that are multiplied with a power of ten. -/
def exactUnits
    (digits : Nat)
    (exponent : Int) :
    ℚ :=
  digits * (10 : ℚ) ^ exponent * unitsPerOne

/-- The number that is said by a literal. -/
inductive Literal.RoundsTo : Literal → Binary64 → Prop
  | nan :
      RoundsTo .nan .nan
  | infinite
      (negative : Bool) :
      RoundsTo (.infinite negative) (.infinite negative)
  | finite
      {negative : Bool}
      {digits units : Nat}
      {exponent : Int} :
      IsNearest (exactUnits digits exponent) units →
        units < unitsLimit →
          RoundsTo (.decimal negative digits exponent) (.finite negative units)
  | overflow
      {negative : Bool}
      {digits units : Nat}
      {exponent : Int} :
      IsNearest (exactUnits digits exponent) units →
        unitsLimit ≤ units →
          RoundsTo (.decimal negative digits exponent) (.infinite negative)

/-- A text is a decimal, written for a number. -/
def Denotes
    (raw : String)
    (v : Binary64) :
    Prop :=
  ∃ l : Literal, l.WrittenAs raw ∧ l.RoundsTo v

section Shortcuts

variable {num den : Nat}

theorem nearest_eq_zero
    (h : 2 * num < den) :
    nearest num den = 0 := by
  have hzero : num / den = 0 := Nat.div_eq_of_lt (by omega)
  have hspacing : spacing 0 = 1 := rfl
  have hrest : num % den = num := Nat.mod_eq_of_lt (by omega)
  simp only [nearest, hzero, hspacing, Nat.mul_one, roundHalfEven, hrest]
  rw [if_pos h]

/-- With an exponent past 400 a number is past the range, whatever its digits. -/
theorem unitsLimit_le_nearest
    {digits e : Nat}
    (hdigits : digits ≠ 0)
    (he : 400 < e) :
    unitsLimit ≤ nearest (digits * Nat.pow 10 e * unitsPerOne) 1 := by
  obtain ⟨k, hk, hlimit⟩ := exists_unitsLimit_eq
  obtain ⟨far, hfar, hpast, _⟩ := exists_tenPow
  rw [hlimit]
  refine pow_le_nearest hk ?_
  rw [← hlimit, Nat.div_one]
  calc
    unitsLimit ≤ Nat.pow 10 far * unitsPerOne := hpast
    _ ≤ Nat.pow 10 e * unitsPerOne :=
      Nat.mul_le_mul_right _ (Nat.pow_le_pow_right (by decide) (by omega))
    _ ≤ digits * Nat.pow 10 e * unitsPerOne :=
      Nat.mul_le_mul_right _ (Nat.le_mul_of_pos_left _ (Nat.pos_of_ne_zero hdigits))

/-- A number with so many places that it is less than half a unit is rounded to zero. -/
theorem nearest_eq_zero_of_places
    {digits places : Nat}
    (h : digits.log2 + 400 < places) :
    nearest (digits * unitsPerOne) (Nat.pow 10 places) = 0 := by
  refine nearest_eq_zero ?_
  obtain ⟨far, hfar, _, hbelow⟩ := exists_tenPow
  have hdigits : digits < 2 * Nat.pow 2 digits.log2 := by
    rw [Nat.mul_comm]
    exact Nat.lt_log2_self
  calc
    2 * (digits * unitsPerOne) = digits * (2 * unitsPerOne) := Nat.mul_left_comm _ _ _
    _ < 2 * Nat.pow 2 digits.log2 * (2 * unitsPerOne) :=
      Nat.mul_lt_mul_of_pos_right hdigits (Nat.mul_pos (by decide) unitsPerOne_pos)
    _ = Nat.pow 2 digits.log2 * (2 * (2 * unitsPerOne)) := by
      rw [Nat.mul_comm 2, Nat.mul_assoc]
    _ ≤ Nat.pow 10 digits.log2 * Nat.pow 10 far :=
      Nat.mul_le_mul (Nat.pow_le_pow_left (by decide) _) hbelow
    _ = Nat.pow 10 (digits.log2 + far) := (Nat.pow_add 10 _ _).symm
    _ ≤ Nat.pow 10 places := Nat.pow_le_pow_right (by decide) (by omega)

theorem ofUnits_zero
    (negative : Bool) :
    ofUnits negative 0 = finite negative 0 := by
  obtain ⟨k, _, hlimit⟩ := exists_unitsLimit_eq
  rw [ofUnits, hlimit, if_pos (two_pow_pos k)]

/-- The value of a decimal is that of its quotient, also where this is not written out. -/
theorem Literal.value_decimal
    (negative : Bool)
    (digits : Nat)
    (exponent : Int) :
    (decimal negative digits exponent).value =
      ofQuotient negative (digits * Nat.pow 10 exponent.toNat) (Nat.pow 10 (-exponent).toNat) := by
  have hten : ∀ {e : Int}, e ≤ 0 → Nat.pow 10 e.toNat = 1 := by
    intro e he
    rw [Int.toNat_of_nonpos he]
  rw [value]
  split
  · rename_i hdigits
    subst hdigits
    rw [ofQuotient, Nat.zero_mul, Nat.zero_mul, nearest_eq_zero (Nat.pow_pos (by decide)),
      ofUnits_zero]
  · split
    · rename_i hdigits hlarge
      rw [hten (by omega : -exponent ≤ 0), ofQuotient, ofUnits,
        if_neg (Nat.not_lt.mpr (unitsLimit_le_nearest hdigits (by omega)))]
    · split
      · rename_i hsmall
        rw [hten (by omega : exponent ≤ 0), Nat.mul_one, ofQuotient,
          nearest_eq_zero_of_places (by omega), ofUnits_zero]
      · split
        · rename_i hexponent
          rw [hten (by omega : -exponent ≤ 0)]
        · rename_i hexponent
          rw [hten (by omega : exponent ≤ 0), Nat.mul_one]

end Shortcuts

section Value

variable {l : Literal} {v v' : Binary64} {raw : String}

theorem exactUnits_eq
    (digits : Nat)
    (exponent : Int) :
    exactUnits digits exponent =
      ((digits * Nat.pow 10 exponent.toNat * unitsPerOne : Nat) : ℚ) /
        (Nat.pow 10 (-exponent).toNat : Nat) := by
  have hpow : ∀ n, ((Nat.pow 10 n : Nat) : ℚ) = (10 : ℚ) ^ n := Nat.cast_pow 10
  rw [exactUnits, Nat.cast_mul, Nat.cast_mul, hpow, hpow]
  obtain ⟨n, rfl | rfl⟩ := exponent.eq_nat_or_neg
  · rw [Int.toNat_natCast, Int.toNat_of_nonpos (by omega), zpow_natCast, pow_zero, div_one]
  · rw [neg_neg, Int.toNat_natCast, Int.toNat_of_nonpos (by omega), zpow_neg, zpow_natCast,
      pow_zero, mul_one, div_eq_mul_inv, mul_right_comm]

theorem Literal.roundsTo_value
    (l : Literal) :
    l.RoundsTo l.value := by
  cases l with
  | nan => exact .nan
  | infinite negative => exact .infinite negative
  | decimal negative digits exponent =>
      have hnearest := isNearest_nearest (digits * Nat.pow 10 exponent.toNat * unitsPerOne)
        (Nat.pow_pos (n := (-exponent).toNat) (by decide : 0 < 10))
      rw [value_decimal, ofQuotient, ofUnits]
      split
      · rename_i hrange
        exact .finite ((exactUnits_eq digits exponent).symm ▸ hnearest) hrange
      · rename_i hrange
        exact .overflow ((exactUnits_eq digits exponent).symm ▸ hnearest) (Nat.not_lt.mp hrange)

/-- A literal says one number only. -/
theorem Literal.RoundsTo.unique
    (h : l.RoundsTo v)
    (h' : l.RoundsTo v') :
    v = v' := by
  cases h with
  | nan => cases h'; rfl
  | infinite negative => cases h'; rfl
  | finite hunits hrange =>
      cases h' with
      | finite hunits' _ => rw [hunits.unique hunits']
      | overflow hunits' hrange' =>
          obtain rfl := hunits.unique hunits'
          omega
  | overflow hunits hrange =>
      cases h' with
      | finite hunits' hrange' =>
          obtain rfl := hunits.unique hunits'
          omega
      | overflow _ _ => rfl

theorem Literal.value_eq_iff :
    l.value = v ↔ l.RoundsTo v := by
  constructor
  · rintro rfl
    exact l.roundsTo_value
  · exact l.roundsTo_value.unique

/-- A decimal is read as the number that it is written for. -/
theorem read_eq_ok_iff_denotes :
    read raw = .ok v ↔ Denotes raw v := by
  simp only [read_eq_ok_iff, Literal.value_eq_iff, Denotes]

theorem Denotes.unique
    (h : Denotes raw v)
    (h' : Denotes raw v') :
    v = v' :=
  Except.ok.inj ((read_eq_ok_iff_denotes.mpr h).symm.trans (read_eq_ok_iff_denotes.mpr h'))

theorem Denotes.representable
    {negative : Bool}
    {units : Nat}
    (h : Denotes raw (.finite negative units)) :
    Representable units := by
  obtain ⟨l, _, hrounds⟩ := h
  cases hrounds with
  | finite hunits _ => exact hunits.representable

end Value

end Binary64
end ServingAdmin
