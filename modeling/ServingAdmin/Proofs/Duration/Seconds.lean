import ServingAdmin.Proofs.Binary64.Numeral
import ServingAdmin.Proofs.Duration.RoundTrip

/-!
# How exactly the seconds of a duration are stored

A duration is stored as its number of seconds, which is rounded to a binary number on the way.
Up to 2^23 seconds the binary numbers lie less than a nanosecond apart, so no two counts of
nanoseconds share one, and the numeral with the fewest places is that of the count.  Whole
seconds are binary numbers themselves, as long as their count of nanoseconds becomes one without
rounding, which it does below 2^62.

In both cases the stored text is written for the duration.
-/

namespace ServingAdmin

namespace Binary64

/-- Nanoseconds up to this many lie further apart than the binary numbers of seconds there. -/
def separateCounts : Nat := 8_388_608 * 1_000_000_000

/-- Nanoseconds in a second. -/
def perSecond : Nat := Nat.pow 10 9

theorem perSecond_pos :
    0 < perSecond := by
  decide

theorem exists_perSecond_mul_lt :
    ∃ k, 1097 ≤ k + 53 ∧ perSecond * Nat.pow 2 k < unitsPerOne :=
  ⟨1044, by decide, by decide +kernel⟩

theorem separateCounts_mul_units :
    separateCounts * unitsPerOne = Nat.pow 2 1097 * perSecond := by
  decide +kernel

theorem precision_mul_units :
    Nat.pow 2 53 * unitsPerOne = Nat.pow 2 1127 := by
  decide +kernel

attribute [local irreducible] unitsPerOne perSecond separateCounts

/-- Seconds are rounded by less than half a nanosecond. -/
theorem nearest_seconds_close
    {n : Nat}
    (hn : n < separateCounts) :
    2 * (nearest (n * unitsPerOne) perSecond * perSecond) < 2 * (n * unitsPerOne) + unitsPerOne ∧
      2 * (n * unitsPerOne) <
        2 * (nearest (n * unitsPerOne) perSecond * perSecond) + unitsPerOne := by
  have hbelow : n * unitsPerOne / perSecond < Nat.pow 2 1097 := by
    rw [Nat.div_lt_iff_lt_mul perSecond_pos, ← separateCounts_mul_units]
    exact Nat.mul_lt_mul_of_pos_right hn unitsPerOne_pos
  obtain ⟨k, hbits, hk⟩ := exists_perSecond_mul_lt
  have hsmall : perSecond * spacing (n * unitsPerOne / perSecond) < unitsPerOne :=
    Nat.lt_of_le_of_lt (Nat.mul_le_mul_left _ (spacing_le hbelow hbits)) hk
  have hup := two_mul_nearest_le (n * unitsPerOne) perSecond
  have hdown := two_mul_le_nearest (n * unitsPerOne) perSecond_pos
  omega

/-- Two counts of nanoseconds whose seconds are rounded to the same number are one count. -/
theorem eq_of_nearest_seconds_eq
    {n m : Nat}
    (hn : n < separateCounts)
    (h : nearest (m * unitsPerOne) perSecond = nearest (n * unitsPerOne) perSecond) :
    m = n := by
  obtain ⟨hup, hdown⟩ := nearest_seconds_close hn
  by_cases hm : m < separateCounts
  · obtain ⟨hup', hdown'⟩ := nearest_seconds_close hm
    rw [h] at hup' hdown'
    have hle : m * unitsPerOne < (n + 1) * unitsPerOne := by
      rw [Nat.add_mul]
      omega
    have hge : n * unitsPerOne < (m + 1) * unitsPerOne := by
      rw [Nat.add_mul]
      omega
    have hlt := Nat.lt_of_mul_lt_mul_right hle
    have hgt := Nat.lt_of_mul_lt_mul_right hge
    omega
  · -- the seconds of the greater count reach a power of two, and those of the other do not
    have hreached : Nat.pow 2 1097 ≤ m * unitsPerOne / perSecond := by
      rw [Nat.le_div_iff_mul_le perSecond_pos, ← separateCounts_mul_units]
      exact Nat.mul_le_mul_right _ (Nat.le_of_not_lt hm)
    have hpow := pow_le_nearest (by decide) hreached
    rw [h] at hpow
    have hscaled := Nat.mul_le_mul_right perSecond hpow
    rw [← separateCounts_mul_units] at hscaled
    have hfar : (n + 1) * unitsPerOne ≤ separateCounts * unitsPerOne :=
      Nat.mul_le_mul_right _ hn
    rw [Nat.add_mul] at hfar
    have hpos := unitsPerOne_pos
    omega

/-- Fewer nanoseconds than lie apart from each other are found again in the numeral of their
seconds. -/
theorem shortestUnits_of_separate
    {n : Nat}
    (hn : n < separateCounts) :
    ∃ p m, p ≤ 9 ∧ m * Nat.pow 10 (9 - p) = n ∧
      shortestUnits (nearest (n * unitsPerOne) perSecond) = numeral p m := by
  obtain ⟨hup, hdown⟩ := nearest_seconds_close hn
  have hpos := unitsPerOne_pos
  have hperSecond : Nat.pow 10 9 = perSecond := by
    unfold perSecond
    rfl
  refine shortestUnits_of_unique (by decide) ?_ ?_ ?_ ?_
  · rw [hperSecond]
  · rw [hperSecond, Nat.add_mul]
    omega
  · rw [hperSecond]
    omega
  · intro m hm
    rw [hperSecond] at hm
    exact eq_of_nearest_seconds_eq hn hm

/-- Whole numbers up to the precision of the format are counts of units of it. -/
theorem nearest_whole
    {k den : Nat}
    (hk : k < Nat.pow 2 53)
    (hden : 0 < den) :
    nearest (k * unitsPerOne * den) den = k * unitsPerOne := by
  obtain ⟨bits, hbits⟩ := exists_unitsPerOne_eq
  rw [hbits]
  exact nearest_of_exact hk hden

/-- A whole number is its own numeral. -/
theorem shortestUnits_of_whole
    {k : Nat}
    (hk : k < Nat.pow 2 53) :
    shortestUnits (k * unitsPerOne) = numeral 0 k := by
  have hpos := unitsPerOne_pos
  have hread : ∀ m, m < Nat.pow 2 53 →
      nearest (m * unitsPerOne) (Nat.pow 10 0) = m * unitsPerOne := by
    intro m hm
    simpa using nearest_whole hm Nat.one_pos
  have hunique : ∀ m, nearest (m * unitsPerOne) (Nat.pow 10 0) = k * unitsPerOne → m = k := by
    intro m hm
    by_cases hsmall : m < Nat.pow 2 53
    · rw [hread m hsmall] at hm
      exact Nat.eq_of_mul_eq_mul_right hpos hm
    · have hreached : Nat.pow 2 1127 ≤ m * unitsPerOne / Nat.pow 10 0 := by
        rw [show m * unitsPerOne / Nat.pow 10 0 = m * unitsPerOne from Nat.div_one _,
          ← precision_mul_units]
        exact Nat.mul_le_mul_right _ (Nat.le_of_not_lt hsmall)
      have hpow := pow_le_nearest (by decide) hreached
      rw [hm, ← precision_mul_units] at hpow
      exact absurd (Nat.le_of_mul_le_mul_right hpow hpos) (Nat.not_le_of_lt hk)
  have hvalue : k * unitsPerOne * Nat.pow 10 0 = k * unitsPerOne :=
    Nat.mul_one _
  obtain ⟨p, m, hp, hm, hfound⟩ :=
    shortestUnits_of_unique (by decide) (hread k hk) (by rw [hvalue, Nat.add_mul]; omega)
      (by rw [hvalue]; omega) hunique
  obtain rfl : p = 0 := Nat.le_zero.mp hp
  rw [hfound, ← hm]
  exact congrArg _ (Nat.mul_one m).symm

/-- A count with few enough significant bits is a binary number. -/
theorem nearest_count
    {a k : Nat}
    (ha : a < Nat.pow 2 53) :
    nearest (a * Nat.pow 2 k * unitsPerOne) 1 = a * Nat.pow 2 k * unitsPerOne := by
  obtain ⟨bits, hbits⟩ := exists_unitsPerOne_eq
  have hunits : a * Nat.pow 2 k * unitsPerOne = a * Nat.pow 2 (k + bits) := by
    rw [hbits, Nat.mul_assoc]
    exact congrArg _ (Nat.pow_add 2 k bits).symm
  rw [hunits]
  simpa using nearest_of_exact (k := k + bits) ha Nat.one_pos

end Binary64

namespace Duration

open Text
open Binary64 (separateCounts perSecond unitsPerOne nearest shortestUnits numeral)

theorem isWholeSeconds_iff
    (d : Duration) :
    d.isWholeSeconds = true ↔ d.nanos.natAbs % 1_000_000_000 = 0 := by
  have hsecond : ((TimeUnit.second.nanos : Nat) : Int) = 1_000_000_000 := rfl
  rw [isWholeSeconds, decide_eq_true_iff, hsecond]
  omega

/-- The durations whose number of seconds is stored without a loss: those of at most 2^23 seconds,
and those of whole seconds with less than 2^62 nanoseconds. -/
def StoredExactly
    (d : Duration) :
    Prop :=
  d.nanos.natAbs ≤ separateCounts ∨
    d.isWholeSeconds = true ∧ d.nanos.natAbs < 0x4000_0000_0000_0000

/-- A numeral with at most nine places is written for its nanoseconds when it counts seconds. -/
theorem magnitude_numeral
    {places n : Nat}
    (hplaces : places ≤ 9)
    (hcount : n * Nat.pow 10 (9 - places) < Nat.pow 2 128) :
    Magnitude (numeral places n ++ ['s']) (n * Nat.pow 10 (9 - places)) := by
  obtain ⟨c, hc, hworth⟩ : ∃ c : Component, c.WrittenAs (numeral places n ++ ['s']) ∧
      c.worth = n * Nat.pow 10 (9 - places) := by
    unfold numeral
    split
    · rename_i hzero
      subst hzero
      have hsum : n * TimeUnit.second.nanos + 0 < Nat.pow 2 128 := by
        simpa [TimeUnit.nanos] using hcount
      simpa [TimeUnit.symbol, TimeUnit.nanos] using
        exists_component .second (rfl : _ = Nat.pow 10 9) (by decide) (numeral_digitsOf n) .none
          hsum
    · rename_i hpos
      have hlength : (paddedDigits places (n % Nat.pow 10 places)).length = places :=
        length_paddedDigits (Nat.pos_of_ne_zero hpos) (Nat.mod_lt _ (Nat.pow_pos (by decide)))
      refine ⟨⟨digitsOf (n / Nat.pow 10 places), paddedDigits places (n % Nat.pow 10 places),
        .second⟩, ?_, ?_⟩
      · exact .mk (.pointed (numeral_digitsOf _).digits (fun _ => isDigit_of_mem_paddedDigits)
          (Or.inl (digitsOf_ne_nil _))) TimeUnit.second.symbol_mem_names
      · have hpow : TimeUnit.second.nanos = Nat.pow 10 places * Nat.pow 10 (9 - places) :=
          calc
            TimeUnit.second.nanos = Nat.pow 10 (places + (9 - places)) := by
              rw [Nat.add_sub_cancel' hplaces]
              rfl
            _ = Nat.pow 10 places * Nat.pow 10 (9 - places) := Nat.pow_add 10 _ _
        have hnine : TimeUnit.second.nanos = Nat.pow 10 9 := rfl
        have hwritten : Component.written ⟨digitsOf (n / Nat.pow 10 places),
            paddedDigits places (n % Nat.pow 10 places), .second⟩ =
              n * Nat.pow 10 (9 - places) := by
          rw [Component.written_of_places hnine (by omega) (by decide), hlength,
            digitsValue_digitsOf, digitsValue_paddedDigits, hpow, ← Nat.mul_assoc, ← Nat.add_mul,
            Nat.div_add_mod']
        rw [Component.worth_of_lt (hwritten ▸ hcount), hwritten]
  have hmagnitude := Magnitude.components (.single hc) (List.cons_ne_nil _ _)
  rwa [total, total, hworth, Nat.add_zero] at hmagnitude

/-- The seconds of a count that is a binary number are rounded only by the division. -/
theorem seconds_of_count
    {d : Duration}
    {a k : Nat}
    (ha : a < Nat.pow 2 53)
    (hcount : d.nanos.natAbs = a * Nat.pow 2 k) :
    d.seconds = .finite d.isNegative (nearest (d.nanos.natAbs * unitsPerOne) perSecond) := by
  rw [seconds, hcount, Binary64.nearest_count ha]
  rfl

/-- Whole seconds with less than 2^62 nanoseconds are not rounded at all. -/
theorem seconds_of_whole
    {d : Duration}
    {s : Nat}
    (hs : d.nanos.natAbs = s * 1_000_000_000)
    (hlt : d.nanos.natAbs < 0x4000_0000_0000_0000) :
    d.seconds = .finite d.isNegative (s * unitsPerOne) ∧
      shortestUnits (s * unitsPerOne) = numeral 0 s := by
  have hprecision : Nat.pow 2 53 = 9_007_199_254_740_992 := rfl
  -- a second has nine factors of two
  have hcount : d.nanos.natAbs = s * 1_953_125 * Nat.pow 2 9 := by
    rw [hs, Nat.mul_assoc]
  refine ⟨?_, Binary64.shortestUnits_of_whole (by omega)⟩
  rw [seconds_of_count (by omega) hcount, hs, Nat.mul_right_comm]
  exact congrArg _ (Binary64.nearest_whole (by omega) Binary64.perSecond_pos)

/-- A duration that is stored exactly is stored as a numeral for its nanoseconds. -/
theorem StoredExactly.exists_numeral
    {d : Duration}
    (h : d.StoredExactly) :
    ∃ places n units, places ≤ 9 ∧ n * Nat.pow 10 (9 - places) = d.nanos.natAbs ∧
      d.seconds = .finite d.isNegative units ∧ shortestUnits units = numeral places n := by
  have hseparate : separateCounts = 8_388_608_000_000_000 := rfl
  by_cases hwhole : d.isWholeSeconds = true ∧ d.nanos.natAbs < 0x4000_0000_0000_0000
  · obtain ⟨hseconds, hlt⟩ := hwhole
    have hdvd : d.nanos.natAbs = d.nanos.natAbs / 1_000_000_000 * 1_000_000_000 := by
      have hrest := d.isWholeSeconds_iff.mp hseconds
      omega
    obtain ⟨hstored, hfound⟩ := seconds_of_whole hdvd hlt
    exact ⟨0, _, _, by decide, hdvd.symm, hstored, hfound⟩
  · have hlt : d.nanos.natAbs < separateCounts := by
      rcases h with hle | hexact
      · refine Nat.lt_of_le_of_ne hle fun heq => hwhole ⟨?_, by omega⟩
        rw [isWholeSeconds_iff, heq, hseparate]
      · exact absurd hexact hwhole
    have hbits : d.nanos.natAbs < Nat.pow 2 53 := by
      have : Nat.pow 2 53 = 9_007_199_254_740_992 := rfl
      omega
    obtain ⟨places, n, hplaces, hn, hfound⟩ := Binary64.shortestUnits_of_separate hlt
    have hcount : d.nanos.natAbs = d.nanos.natAbs * Nat.pow 2 0 := (Nat.mul_one _).symm
    exact ⟨places, n, _, hplaces, hn, seconds_of_count hbits hcount, hfound⟩

/-- Whole seconds are stored as the plain numeral of their number. -/
theorem secondsText_of_whole
    {d : Duration}
    {s : Nat}
    (hs : d.nanos = s * 1_000_000_000)
    (hlt : d.nanos < 0x4000_0000_0000_0000) :
    d.secondsText = toString s ++ "s" := by
  obtain ⟨hseconds, hfound⟩ := seconds_of_whole (d := d) (s := s) (by omega) (by omega)
  have hsign : d.isNegative = false := by
    rw [isNegative, decide_eq_false_iff_not]
    omega
  rw [secondsText, hseconds, Binary64.shortest, hfound, hsign]
  rfl

/-- The stored text of a duration that is stored exactly is written for it. -/
theorem StoredExactly.denotes
    {d : Duration}
    (h : d.StoredExactly) :
    Denotes d.secondsText d := by
  have hlimit : d.nanos.natAbs ≤ limit := by
    have hseparate : separateCounts = 8_388_608_000_000_000 := rfl
    have hlimit : limit = 0x7FFF_FFFF_FFFF_FFFF := rfl
    rcases h with hle | ⟨_, hlt⟩ <;> omega
  obtain ⟨places, n, units, hplaces, hn, hseconds, hfound⟩ := h.exists_numeral
  have hcount : n * Nat.pow 10 (9 - places) < Nat.pow 2 128 :=
    hn ▸ Nat.lt_of_le_of_lt hlimit (by decide)
  have hmagnitude := magnitude_numeral hplaces hcount
  rw [hn] at hmagnitude
  refine ⟨d.isNegative, _, _, ?_, hmagnitude, hlimit, ?_⟩
  · have hsigned := hmagnitude.signed d.isNegative
    have htext : d.secondsText.toList =
        if d.isNegative then '-' :: (numeral places n ++ ['s']) else numeral places n ++ ['s'] := by
      rw [secondsText, hseconds, Binary64.shortest, Binary64.signed, hfound]
      cases d.isNegative <;> simp
    rwa [htext]
  · simp only [isNegative, decide_eq_true_eq]
    split <;> omega

-- a nanosecond past the one bound, and a second past the other
example : secondsText ⟨8_388_608_000_000_001, by decide⟩ = "8388608.000000002s" := by
  decide +kernel
example : secondsText ⟨4_611_686_019_000_000_000, by decide⟩ = "4611686019.000001s" := by
  decide +kernel

end Duration
end ServingAdmin
