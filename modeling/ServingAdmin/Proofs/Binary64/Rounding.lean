import Mathlib.Algebra.Order.Field.Rat
import Mathlib.Tactic.Linarith
import Mathlib.Tactic.LinearCombination
import ServingAdmin.Proofs.Binary64.Numeral

/-!
# Rounding is to the nearest number

What rounding gives is said here without saying how it is done.  The numbers of the format are the
counts of units with at most 53 significant bits.  The number nearest to an exact value is one that
no other is closer to, and of two that are equally close it is the one whose last bit is zero.
There is only one such number (`IsNearest.unique`), and it is the one to which a quotient is rounded
(`isNearest_nearest`).
-/

namespace ServingAdmin
namespace Binary64

/-- A count of units with at most 53 significant bits. -/
def Representable
    (n : Nat) :
    Prop :=
  ∃ a k, a < Nat.pow 2 53 ∧ n = a * Nat.pow 2 k

/-- A count of units with at most 53 significant bits, the last of which is zero. -/
def HasEvenBits
    (n : Nat) :
    Prop :=
  ∃ a k, a < Nat.pow 2 52 ∧ n = 2 * a * Nat.pow 2 k

/-- The number of the format that is nearest to an exact count of units. -/
structure IsNearest
    (x : ℚ)
    (n : Nat) :
    Prop where
  representable : Representable n
  closest : ∀ m, Representable m → |x - n| ≤ |x - m|
  even : ∀ m, Representable m → m ≠ n → |x - m| = |x - n| → HasEvenBits n

section Unique

variable {n m : Nat} {x : ℚ}

theorem HasEvenBits.representable
    (h : HasEvenBits n) :
    Representable n := by
  obtain ⟨a, k, ha, rfl⟩ := h
  have hpow : Nat.pow 2 53 = 2 * Nat.pow 2 52 := rfl
  exact ⟨2 * a, k, by omega, rfl⟩

/-- Multiples of a power of two that are not the same are at least that power apart. -/
theorem add_le_of_dvd
    {s : Nat}
    (hn : s ∣ n)
    (hm : s ∣ m)
    (h : n < m) :
    n + s ≤ m := by
  have hle := Nat.le_of_dvd (by omega) (Nat.dvd_sub hm hn)
  omega

theorem two_mul_pow_dvd
    {a j k : Nat}
    (h : j ≤ k) :
    2 * Nat.pow 2 j ∣ 2 * a * Nat.pow 2 k := by
  rw [Nat.mul_right_comm]
  exact Nat.dvd_mul_right_of_dvd (Nat.mul_dvd_mul_left 2 (Nat.pow_dvd_pow 2 h)) a

/-- Between two numbers whose last bits are zero there is another number. -/
theorem HasEvenBits.exists_between
    (hn : HasEvenBits n)
    (hm : HasEvenBits m)
    (h : n < m) :
    ∃ w, Representable w ∧ n < w ∧ w < m := by
  obtain ⟨a, j, ha, rfl⟩ := hn
  obtain ⟨b, k, hb, rfl⟩ := hm
  have hpow : Nat.pow 2 53 = 2 * Nat.pow 2 52 := rfl
  rcases Nat.le_total j k with hjk | hkj
  · have hfar := add_le_of_dvd (two_mul_pow_dvd (Nat.le_refl j)) (two_mul_pow_dvd hjk) h
    have hpos := two_pow_pos j
    refine ⟨(2 * a + 1) * Nat.pow 2 j, ⟨_, j, by omega, rfl⟩, ?_, ?_⟩
    all_goals
      rw [Nat.add_mul]
      omega
  · have hfar := add_le_of_dvd (two_mul_pow_dvd hkj) (two_mul_pow_dvd (Nat.le_refl k)) h
    have hpos := two_pow_pos k
    have hb' : b ≠ 0 := by
      rintro rfl
      omega
    refine ⟨(2 * b - 1) * Nat.pow 2 k, ⟨_, k, by omega, rfl⟩, ?_, ?_⟩
    all_goals
      rw [Nat.sub_mul]
      omega

theorem IsNearest.unique_of_lt
    (hn : IsNearest x n)
    (hm : IsNearest x m) :
    ¬ n < m := by
  intro hlt
  have hdistance : |x - m| = |x - n| :=
    le_antisymm (hm.closest n hn.representable) (hn.closest m hm.representable)
  obtain ⟨w, hw, hnw, hwm⟩ := (hn.even m hm.representable (by omega) hdistance).exists_between
    (hm.even n hn.representable (by omega) hdistance.symm) hlt
  have hcloser := hn.closest w hw
  have hnw' : (n : ℚ) < w := by exact_mod_cast hnw
  have hwm' : (w : ℚ) < m := by exact_mod_cast hwm
  -- an exact value that is as far from both is in the middle between them
  rcases abs_cases (x - n) with ⟨h₁, _⟩ | ⟨h₁, _⟩ <;>
    rcases abs_cases (x - m) with ⟨h₂, _⟩ | ⟨h₂, _⟩ <;>
      rcases abs_cases (x - w) with ⟨h₃, _⟩ | ⟨h₃, _⟩ <;> linarith

/-- An exact value has one nearest number only. -/
theorem IsNearest.unique
    (hn : IsNearest x n)
    (hm : IsNearest x m) :
    n = m :=
  Nat.le_antisymm (Nat.le_of_not_lt (hm.unique_of_lt hn)) (Nat.le_of_not_lt (hn.unique_of_lt hm))

end Unique

section Grid

variable {n s : Nat} {x : ℚ}

/-- Another multiple of the spacing is at least half of it away from what rounds to the first. -/
theorem le_two_mul_distance
    {m : Nat}
    (hn : s ∣ n)
    (hm : s ∣ m)
    (hne : m ≠ n)
    (hhalf : 2 * |x - n| ≤ s) :
    s ≤ 2 * |x - m| := by
  rcases Nat.lt_or_gt_of_ne hne with hlt | hlt
  · have hfar : (m : ℚ) + s ≤ n := by exact_mod_cast add_le_of_dvd hm hn hlt
    have hx := (abs_le.mp (le_refl |x - n|)).1
    have hm' := le_abs_self (x - m)
    linarith
  · have hfar : (n : ℚ) + s ≤ m := by exact_mod_cast add_le_of_dvd hn hm hlt
    have hx := (abs_le.mp (le_refl |x - n|)).2
    have hm' := neg_le_abs (x - m)
    linarith

/-- On a grid that holds all numbers from one of its points below the value on, the grid point that
is at most half of the spacing away is the nearest number. -/
theorem isNearest_of_grid
    (hn : s ∣ n)
    (hrepresentable : Representable n)
    (hhalf : 2 * |x - n| ≤ s)
    (heven : 2 * |x - n| = s → HasEvenBits n)
    (hgrid : ∀ m, Representable m → s ∣ m ∨ ∃ p : Nat, s ∣ p ∧ m < p ∧ (p : ℚ) ≤ x) :
    IsNearest x n := by
  have hother : ∀ m, Representable m → m ≠ n →
      |x - n| < |x - m| ∨ |x - n| ≤ |x - m| ∧ (s : ℚ) ≤ 2 * |x - m| := by
    intro m hm hne
    rcases hgrid m hm with hdvd | ⟨p, hp, hmp, hpx⟩
    · have hfar := le_two_mul_distance hn hdvd hne hhalf
      exact Or.inr ⟨by linarith, hfar⟩
    · -- the grid point between the other number and the value is closer to the value
      have hmp' : (m : ℚ) < p := by exact_mod_cast hmp
      have hm' : |x - m| = x - m := abs_of_nonneg (by linarith)
      have hp' : |x - p| = x - p := abs_of_nonneg (by linarith)
      refine Or.inl ?_
      by_cases hpn : p = n
      · subst hpn
        linarith
      · have hfar := le_two_mul_distance hn hp hpn hhalf
        linarith
  refine ⟨hrepresentable, fun m hm => ?_, fun m hm hne hdistance => ?_⟩
  · by_cases hne : m = n
    · rw [hne]
    · rcases hother m hm hne with h | ⟨h, _⟩
      · exact le_of_lt h
      · exact h
  · rcases hother m hm hne with h | ⟨_, h⟩
    · exact absurd hdistance (ne_of_gt h)
    · exact heven (by linarith)

end Grid

section Nearest

variable {num den : Nat}

theorem representable_of_le
    {q : Nat}
    (hq : q ≤ Nat.pow 2 53)
    (j : Nat) :
    Representable (q * Nat.pow 2 j) := by
  rcases Nat.lt_or_eq_of_le hq with hlt | rfl
  · exact ⟨q, j, hlt, rfl⟩
  · exact ⟨1, 53 + j, by decide, by rw [Nat.one_mul]; exact (Nat.pow_add 2 53 j).symm⟩

theorem hasEvenBits_of_le
    {q : Nat}
    (hq : q ≤ Nat.pow 2 53)
    (heven : q % 2 = 0)
    (j : Nat) :
    HasEvenBits (q * Nat.pow 2 j) := by
  have hpow : Nat.pow 2 53 = 2 * Nat.pow 2 52 := rfl
  rcases Nat.lt_or_eq_of_le hq with hlt | rfl
  · exact ⟨q / 2, j, by omega, by rw [Nat.mul_div_cancel' (Nat.dvd_of_mod_eq_zero heven)]⟩
  · refine ⟨1, 52 + j, by decide, ?_⟩
    rw [hpow, Nat.mul_assoc]
    exact congrArg (2 * ·) (Nat.pow_add 2 52 j).symm

/-- A number of the format is on the grid around a quotient, or below a point of the grid that the
quotient has reached. -/
theorem Representable.on_grid
    {m : Nat}
    (h : Representable m)
    (k : Nat) :
    spacing k ∣ m ∨ ∃ p, spacing k ∣ p ∧ m < p ∧ p ≤ k := by
  obtain ⟨a, i, ha, rfl⟩ := h
  by_cases hi : k.log2 - 52 ≤ i
  · exact Or.inl (Nat.dvd_trans (Nat.pow_dvd_pow 2 hi) (Nat.dvd_mul_left _ _))
  · have hk : k ≠ 0 := by
      rintro rfl
      exact hi (by simp)
    refine Or.inr ⟨Nat.pow 2 k.log2, Nat.pow_dvd_pow 2 (Nat.sub_le _ _), ?_,
      Nat.log2_self_le hk⟩
    calc
      a * Nat.pow 2 i < Nat.pow 2 53 * Nat.pow 2 i :=
        Nat.mul_lt_mul_of_pos_right ha (two_pow_pos i)
      _ = Nat.pow 2 (53 + i) := (Nat.pow_add 2 53 i).symm
      _ ≤ Nat.pow 2 k.log2 := Nat.pow_le_pow_right (by decide) (by omega)

theorem roundHalfEven_le
    (num den : Nat) :
    roundHalfEven num (den * spacing (num / den)) ≤ Nat.pow 2 53 := by
  have hlt : num / (den * spacing (num / den)) < Nat.pow 2 53 := by
    rw [← Nat.div_div_eq_div_mul, Nat.div_lt_iff_lt_mul (spacing_pos _)]
    calc
      num / den < Nat.pow 2 ((num / den).log2 + 1) := Nat.lt_log2_self
      _ ≤ Nat.pow 2 (53 + ((num / den).log2 - 52)) :=
        Nat.pow_le_pow_right (by decide) (by omega)
      _ = Nat.pow 2 53 * spacing (num / den) := Nat.pow_add 2 53 _
  rcases roundHalfEven_cases num (den * spacing (num / den)) with ⟨h, _⟩ | ⟨h, _⟩ <;> omega

theorem two_mul_distance_nearest_le
    (num : Nat)
    (hden : 0 < den) :
    2 * |(num : ℚ) / den - nearest num den| ≤ spacing (num / den) := by
  have hden' : (0 : ℚ) < den := by exact_mod_cast hden
  have hx : (num : ℚ) / den * den = num := div_mul_cancel₀ _ (ne_of_gt hden')
  have habove : 2 * ((nearest num den : ℚ) * den) ≤ 2 * num + den * spacing (num / den) := by
    exact_mod_cast two_mul_nearest_le num den
  have hbelow : 2 * (num : ℚ) ≤ 2 * ((nearest num den : ℚ) * den) + den * spacing (num / den) := by
    exact_mod_cast two_mul_le_nearest num hden
  refine le_of_mul_le_mul_right ?_ hden'
  rcases abs_cases ((num : ℚ) / den - nearest num den) with ⟨h, _⟩ | ⟨h, _⟩ <;>
    rw [h] <;> linarith

/-- What is rounded from the middle between two numbers has a zero as its last bit. -/
theorem hasEvenBits_of_tie
    (hden : 0 < den)
    (htie : 2 * |(num : ℚ) / den - nearest num den| = spacing (num / den)) :
    HasEvenBits (nearest num den) := by
  have hden' : (den : ℚ) ≠ 0 := by exact_mod_cast Nat.ne_of_gt hden
  have hx : (num : ℚ) / den * den = num := div_mul_cancel₀ _ hden'
  refine hasEvenBits_of_le (roundHalfEven_le num den) ?_ _
  refine roundHalfEven_even_of_tie (Nat.mul_pos hden (spacing_pos _)) ?_
  rw [← nearest_mul_den]
  rcases abs_cases ((num : ℚ) / den - nearest num den) with ⟨h, _⟩ | ⟨h, _⟩
  · have hnum : 2 * (num : ℚ) = 2 * (nearest num den * den) + den * spacing (num / den) := by
      linear_combination (den : ℚ) * (htie - 2 * h) - 2 * hx
    exact Or.inl (by exact_mod_cast hnum)
  · have hnum : 2 * (num : ℚ) + den * spacing (num / den) = 2 * (nearest num den * den) := by
      linear_combination (-(den : ℚ)) * (htie - 2 * h) - 2 * hx
    exact Or.inr (by exact_mod_cast hnum)

/-- A quotient is rounded to the number that is nearest to it. -/
theorem isNearest_nearest
    (num : Nat)
    (hden : 0 < den) :
    IsNearest ((num : ℚ) / den) (nearest num den) := by
  refine isNearest_of_grid (s := spacing (num / den)) (Nat.dvd_mul_left _ _)
    (representable_of_le (roundHalfEven_le num den) _) (two_mul_distance_nearest_le num hden)
    (hasEvenBits_of_tie hden) (fun m hm => ?_)
  rcases hm.on_grid (num / den) with hdvd | ⟨p, hp, hmp, hpx⟩
  · exact Or.inl hdvd
  · have hreached : (p : ℚ) * den ≤ num := by
      exact_mod_cast (Nat.le_div_iff_mul_le hden).mp hpx
    have hden' : (0 : ℚ) < den := by exact_mod_cast hden
    exact Or.inr ⟨p, hp, hmp, (le_div_iff₀ hden').mpr hreached⟩

end Nearest

section Neighbours

/-- From 2^(52 + j) on the numbers of the format are multiples of 2^j. -/
theorem Representable.dvd_of_le
    {n j : Nat}
    (hn : Representable n)
    (h : Nat.pow 2 (52 + j) ≤ n) :
    Nat.pow 2 j ∣ n := by
  obtain ⟨a, k, ha, rfl⟩ := hn
  have hlt : Nat.pow 2 (52 + j) < Nat.pow 2 (53 + k) :=
    calc
      Nat.pow 2 (52 + j) ≤ a * Nat.pow 2 k := h
      _ < Nat.pow 2 53 * Nat.pow 2 k := Nat.mul_lt_mul_of_pos_right ha (two_pow_pos k)
      _ = Nat.pow 2 (53 + k) := (Nat.pow_add 2 53 k).symm
  have hjk : 52 + j < 53 + k := (Nat.pow_lt_pow_iff_right (by decide)).mp hlt
  exact Nat.dvd_trans (Nat.pow_dvd_pow 2 (by omega)) (Nat.dvd_mul_left _ _)

/-- The numbers around 2^53 times a power of two are multiples of this power, but not the first one
behind it, which has a bit too many. -/
theorem Representable.exists_count
    {n j : Nat}
    (hn : Representable n)
    (hleast : (Nat.pow 2 53 - 2) * Nat.pow 2 j ≤ n)
    (hmost : n ≤ (Nat.pow 2 53 + 2) * Nat.pow 2 j) :
    ∃ c, n = c * Nat.pow 2 j ∧ Nat.pow 2 53 - 2 ≤ c ∧ c ≤ Nat.pow 2 53 + 2 ∧
      c ≠ Nat.pow 2 53 + 1 := by
  have hpos := two_pow_pos j
  have hdvd : Nat.pow 2 j ∣ n := by
    refine hn.dvd_of_le (Nat.le_trans ?_ hleast)
    calc
      Nat.pow 2 (52 + j) = Nat.pow 2 52 * Nat.pow 2 j := Nat.pow_add 2 52 j
      _ ≤ (Nat.pow 2 53 - 2) * Nat.pow 2 j := Nat.mul_le_mul_right _ (by decide)
  obtain ⟨c, rfl⟩ := exists_eq_mul_left_of_dvd hdvd
  refine ⟨c, rfl, Nat.le_of_mul_le_mul_right hleast hpos, Nat.le_of_mul_le_mul_right hmost hpos, ?_⟩
  rintro rfl
  -- from there on only every other multiple is a number
  have hdvd' : Nat.pow 2 (j + 1) ∣ (Nat.pow 2 53 + 1) * Nat.pow 2 j := by
    refine hn.dvd_of_le ?_
    calc
      Nat.pow 2 (52 + (j + 1)) = Nat.pow 2 (53 + j) := by
        rw [Nat.add_comm j 1, ← Nat.add_assoc]
      _ = Nat.pow 2 53 * Nat.pow 2 j := Nat.pow_add 2 53 j
      _ ≤ (Nat.pow 2 53 + 1) * Nat.pow 2 j := Nat.mul_le_mul_right _ (Nat.le_succ _)
  have hsucc : Nat.pow 2 (j + 1) = 2 * Nat.pow 2 j := Nat.pow_succ'
  rw [hsucc] at hdvd'
  exact absurd (Nat.dvd_of_mul_dvd_mul_right hpos hdvd') (by decide)

end Neighbours

end Binary64
end ServingAdmin
