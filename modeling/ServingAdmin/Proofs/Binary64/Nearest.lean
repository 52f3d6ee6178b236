import Mathlib.Logic.Basic
import ServingAdmin.Binary64.Basic

/-!
# How far rounding goes

Rounding moves a quotient by at most half of the spacing of the numbers around it.  It leaves
the numbers of the format as they are, and it does not take a quotient below a power of two
that it has reached.

A quotient in lowest terms and any other with the same value are rounded to the same number.
-/

namespace ServingAdmin
namespace Binary64

section RoundHalfEven

/-- Rounding to a whole number goes down where at most half is left over, and up where at least half
is. -/
theorem roundHalfEven_cases
    (num den : Nat) :
    roundHalfEven num den = num / den ∧ 2 * (num % den) ≤ den ∨
      roundHalfEven num den = num / den + 1 ∧ den ≤ 2 * (num % den) := by
  simp only [roundHalfEven]
  split
  · exact Or.inl ⟨rfl, by omega⟩
  · split
    · exact Or.inr ⟨rfl, by omega⟩
    · rcases Nat.mod_two_eq_zero_or_one (num / den) with heven | hodd
      · exact Or.inl ⟨by rw [heven]; rfl, by omega⟩
      · exact Or.inr ⟨by rw [hodd], by omega⟩

theorem div_le_roundHalfEven
    (num den : Nat) :
    num / den ≤ roundHalfEven num den := by
  rcases roundHalfEven_cases num den with ⟨h, _⟩ | ⟨h, _⟩ <;> omega

theorem two_mul_roundHalfEven_le
    (num den : Nat) :
    2 * (roundHalfEven num den * den) ≤ 2 * num + den := by
  have hnum := Nat.div_add_mod' num den
  rcases roundHalfEven_cases num den with ⟨h, hrest⟩ | ⟨h, hrest⟩
  · rw [h]
    omega
  · rw [h, Nat.add_mul, Nat.one_mul]
    omega

theorem two_mul_le_roundHalfEven
    (num : Nat)
    {den : Nat}
    (hden : 0 < den) :
    2 * num ≤ 2 * (roundHalfEven num den * den) + den := by
  have hnum := Nat.div_add_mod' num den
  have hlt := Nat.mod_lt num hden
  rcases roundHalfEven_cases num den with ⟨h, hrest⟩ | ⟨h, hrest⟩
  · rw [h]
    omega
  · rw [h, Nat.add_mul, Nat.one_mul]
    omega

/-- From the middle between two whole numbers rounding goes to the even one. -/
theorem roundHalfEven_even_of_tie
    {num den : Nat}
    (hden : 0 < den)
    (h : 2 * num = 2 * (roundHalfEven num den * den) + den ∨
      2 * num + den = 2 * (roundHalfEven num den * den)) :
    roundHalfEven num den % 2 = 0 := by
  have hnum := Nat.div_add_mod' num den
  have hlt := Nat.mod_lt num hden
  have hmiddle : 2 * (num % den) = den := by
    rcases roundHalfEven_cases num den with ⟨hq, _⟩ | ⟨hq, _⟩
    · rw [hq] at h
      omega
    · rw [hq, Nat.add_mul, Nat.one_mul] at h
      omega
  simp only [roundHalfEven]
  rw [if_neg (by omega), if_neg (by omega)]
  omega

theorem roundHalfEven_mul_self
    (k : Nat)
    {den : Nat}
    (hden : 0 < den) :
    roundHalfEven (k * den) den = k := by
  simp [roundHalfEven, hden]

theorem roundHalfEven_scale
    (num den : Nat)
    {c : Nat}
    (hc : 0 < c) :
    roundHalfEven (num * c) (den * c) = roundHalfEven num den := by
  have hless : ∀ a b : Nat, a * c < b * c ↔ a < b := fun a b =>
    Nat.mul_lt_mul_right hc
  simp only [roundHalfEven, Nat.mul_div_mul_right _ _ hc, Nat.mul_mod_mul_right,
    ← Nat.mul_assoc, hless]

end RoundHalfEven

section Spacing

theorem two_pow_pos
    (k : Nat) :
    0 < Nat.pow 2 k :=
  Nat.pow_pos (by decide)

theorem spacing_pos
    (n : Nat) :
    0 < spacing n :=
  two_pow_pos _

/-- Below 2^(k + 53) the numbers of the format are at most 2^k apart. -/
theorem spacing_le
    {n j k : Nat}
    (h : n < Nat.pow 2 j)
    (hj : j ≤ k + 53) :
    spacing n ≤ Nat.pow 2 k := by
  refine Nat.pow_le_pow_right (by decide) ?_
  rcases Nat.eq_zero_or_pos n with rfl | hpos
  · simp
  · have hlog := (Nat.log2_lt (Nat.ne_of_gt hpos)).mpr h
    omega

/-- A multiple of 2^k below 2^(k + 53) is a number of the format. -/
theorem spacing_dvd
    {a k : Nat}
    (ha : a < Nat.pow 2 53) :
    spacing (a * Nat.pow 2 k) ∣ a * Nat.pow 2 k := by
  refine Nat.dvd_trans (Nat.pow_dvd_pow 2 ?_) (Nat.dvd_mul_left _ _)
  rcases Nat.eq_zero_or_pos a with rfl | hpos
  · simp
  · have hne : a * Nat.pow 2 k ≠ 0 :=
      Nat.ne_of_gt (Nat.mul_pos hpos (two_pow_pos k))
    have hlt : a * Nat.pow 2 k < Nat.pow 2 (53 + k) :=
      calc
        a * Nat.pow 2 k < Nat.pow 2 53 * Nat.pow 2 k :=
          Nat.mul_lt_mul_of_pos_right ha (two_pow_pos k)
        _ = Nat.pow 2 (53 + k) := (Nat.pow_add 2 53 k).symm
    have hlog := (Nat.log2_lt hne).mpr hlt
    omega

end Spacing

section Nearest

theorem nearest_scale
    (num den : Nat)
    {c : Nat}
    (hc : 0 < c) :
    nearest (num * c) (den * c) = nearest num den := by
  simp only [nearest, Nat.mul_div_mul_right _ _ hc, Nat.mul_right_comm den c,
    roundHalfEven_scale _ _ hc]

theorem nearest_mul_den
    (num den : Nat) :
    nearest num den * den =
      roundHalfEven num (den * spacing (num / den)) * (den * spacing (num / den)) := by
  simp only [nearest]
  rw [Nat.mul_assoc, Nat.mul_comm (spacing _)]

theorem two_mul_nearest_le
    (num den : Nat) :
    2 * (nearest num den * den) ≤ 2 * num + den * spacing (num / den) := by
  rw [nearest_mul_den]
  exact two_mul_roundHalfEven_le _ _

theorem two_mul_le_nearest
    (num : Nat)
    {den : Nat}
    (hden : 0 < den) :
    2 * num ≤ 2 * (nearest num den * den) + den * spacing (num / den) := by
  rw [nearest_mul_den]
  exact two_mul_le_roundHalfEven _ (Nat.mul_pos hden (spacing_pos _))

/-- A number of the format is rounded to itself. -/
theorem nearest_of_exact
    {a k den : Nat}
    (ha : a < Nat.pow 2 53)
    (hden : 0 < den) :
    nearest (a * Nat.pow 2 k * den) den = a * Nat.pow 2 k := by
  obtain ⟨j, hj⟩ := spacing_dvd (k := k) ha
  have hnum : a * Nat.pow 2 k * den = j * (den * spacing (a * Nat.pow 2 k)) := by
    conv in a * Nat.pow 2 k * den => rw [hj]
    rw [Nat.mul_comm (spacing _) j, Nat.mul_assoc, Nat.mul_comm den]
  rw [nearest, Nat.mul_div_cancel _ hden]
  simp only [hnum]
  rw [roundHalfEven_mul_self j (Nat.mul_pos hden (spacing_pos _)), Nat.mul_comm, ← hj]

/-- A quotient that reaches a power of two is not rounded below it. -/
theorem pow_le_nearest
    {num den k : Nat}
    (hk : 52 ≤ k)
    (h : Nat.pow 2 k ≤ num / den) :
    Nat.pow 2 k ≤ nearest num den := by
  have hpos : num / den ≠ 0 :=
    Nat.ne_of_gt (Nat.lt_of_lt_of_le (two_pow_pos k) h)
  have hlog : k ≤ (num / den).log2 :=
    (Nat.le_log2 hpos).mpr h
  have hsplit : Nat.pow 2 52 * spacing (num / den) = Nat.pow 2 (num / den).log2 := by
    rw [spacing]
    refine (Nat.pow_add 2 52 _).symm.trans ?_
    rw [Nat.add_sub_cancel' (Nat.le_trans hk hlog)]
    rfl
  have hreached : Nat.pow 2 52 ≤ num / (den * spacing (num / den)) := by
    rw [← Nat.div_div_eq_div_mul, Nat.le_div_iff_mul_le (spacing_pos _), hsplit]
    exact Nat.log2_self_le hpos
  calc
    Nat.pow 2 k ≤ Nat.pow 2 (num / den).log2 := Nat.pow_le_pow_right (by decide) hlog
    _ = Nat.pow 2 52 * spacing (num / den) := hsplit.symm
    _ ≤ nearest num den :=
      Nat.mul_le_mul_right _ (Nat.le_trans hreached (div_le_roundHalfEven _ _))

end Nearest

end Binary64
end ServingAdmin
