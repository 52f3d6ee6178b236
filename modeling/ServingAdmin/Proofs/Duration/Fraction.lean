import Mathlib.Algebra.Ring.Nat
import Mathlib.Tactic.ByContra
import ServingAdmin.Proofs.Checks
import ServingAdmin.Proofs.Duration.RoundTrip

/-!
# What a component loses

The reader drops the digits of a fraction behind the eighteenth and rounds down.  For units of up to
a second this counts what all the digits come to: eighteen digits write every nanosecond of them
exactly.  A nanosecond is no decimal fraction of a minute or an hour, as these have factors of
three.  The digits of a fraction can then come to a whole nanosecond that the first eighteen of them
do not reach, and in just that case (`Component.CutShort`) one nanosecond is lost.

A component whose fraction takes it past 128 bits (`Component.Wraps`) loses all that these count.
-/

namespace ServingAdmin
namespace Duration

open Text

/-- What is left of a unit, in nanoseconds, without its factors two and five. -/
def TimeUnit.oddFactor : TimeUnit → Nat
  | minute => 3
  | hour => 9
  | _ => 1

/-- The number of the last place of the digits that are kept which makes up as many nanoseconds as
the odd factor says. -/
def TimeUnit.stride
    (unit : TimeUnit) :
    Nat :=
  Nat.pow 10 Component.fractionDigits * unit.oddFactor / unit.nanos

instance (s : List Char) : Decidable (Digits s) :=
  List.decidableBAll (fun digit : Char => digit.isDigit = true) s

namespace Component

/-- The nanoseconds of a component with all digits of its fraction, rounded down. -/
def exactNanos
    (c : Component) :
    Nat :=
  digitsValue (c.whole ++ c.fraction) * c.unit.nanos / Nat.pow 10 c.fraction.length

/-- The kept digits are less than a nanosecond short of a multiple of the stride, and the dropped
digits make up for what is missing.  What is missing is counted in the last place that is kept,
times the odd factor. -/
def CutShort
    (c : Component) :
    Prop :=
  ∃ missing, missing < c.unit.oddFactor ∧ 0 < missing ∧
    c.unit.stride ∣ c.unit.oddFactor * digitsValue (c.fraction.take fractionDigits) + missing ∧
    missing * Nat.pow 10 (c.fraction.length - fractionDigits) ≤
      c.unit.oddFactor * digitsValue (c.fraction.drop fractionDigits)

instance (c : Component) : Decidable c.CutShort :=
  inferInstanceAs (Decidable (∃ _, _))

end Component

section Carry

/-- A quotient of a number and the digits behind it is that of the number alone, or one more where
the digits make up for what the number lacks to a multiple. -/
theorem div_eq_or_carry
    {a g n d p : Nat}
    (ha : 0 < a)
    (hag : a ≤ g)
    (hd : d < p) :
    ((∃ j, j < a ∧ 0 < j ∧ g ∣ a * n + j ∧ j * p ≤ a * d) ∧
        (n * p + d) * a / (g * p) = n * a / g + 1) ∨
      (¬ (∃ j, j < a ∧ 0 < j ∧ g ∣ a * n + j ∧ j * p ≤ a * d) ∧
        (n * p + d) * a / (g * p) = n * a / g) := by
  have hg : 0 < g := Nat.lt_of_lt_of_le ha hag
  have hgp : 0 < g * p := Nat.mul_pos hg (by omega)
  obtain ⟨q, r, hr, hn⟩ : ∃ q r, r < g ∧ n * a = q * g + r :=
    ⟨n * a / g, n * a % g, Nat.mod_lt _ hg, by rw [Nat.div_add_mod']⟩
  have hquotient : n * a / g = q := by
    rw [hn, Nat.mul_comm q g, Nat.mul_add_div hg, Nat.div_eq_of_lt hr, Nat.add_zero]
  have hsplit : (n * p + d) * a = g * p * q + (r * p + a * d) := by
    calc
      (n * p + d) * a = n * a * p + a * d := by
        rw [Nat.add_mul, Nat.mul_right_comm, Nat.mul_comm d a]
      _ = (q * g + r) * p + a * d := by rw [hn]
      _ = g * p * q + (r * p + a * d) := by
        rw [Nat.add_mul, Nat.add_assoc, Nat.mul_assoc q, Nat.mul_comm q]
  have hshort : a * d < a * p := Nat.mul_lt_mul_of_pos_left hd ha
  have hlow : (r + 1) * p ≤ g * p := Nat.mul_le_mul_right p hr
  have hpart : a * p ≤ g * p := Nat.mul_le_mul_right p hag
  rw [Nat.add_mul, Nat.one_mul] at hlow
  rw [hquotient, hsplit, Nat.mul_add_div hgp]
  by_cases hcarry : g * p ≤ r * p + a * d
  · refine Or.inl ⟨⟨g - r, ?_, by omega, ?_, ?_⟩, ?_⟩
    · have hmissing : (g - r) * p < a * p := by
        rw [Nat.sub_mul]
        omega
      exact Nat.lt_of_mul_lt_mul_right hmissing
    · have hnext : a * n + (g - r) = g * (q + 1) := by
        rw [Nat.mul_comm a n, hn, Nat.mul_add, Nat.mul_one, Nat.mul_comm q g]
        omega
      exact ⟨q + 1, hnext⟩
    · rw [Nat.sub_mul]
      omega
    · have hone : (r * p + a * d) / (g * p) = 1 :=
        Nat.div_eq_of_lt_le (by omega) (by omega)
      rw [hone]
  · refine Or.inr ⟨?_, ?_⟩
    · rintro ⟨j, hlt, hpos, hdvd, hle⟩
      -- the rest and what is missing are together the only multiple that is not too large
      have hrest : g ∣ r + j := by
        rw [Nat.mul_comm a n, hn, Nat.add_assoc] at hdvd
        exact (Nat.dvd_add_right (Nat.dvd_mul_left g q)).mp hdvd
      obtain ⟨k, hk⟩ := hrest
      have hone : k = 1 := by
        have hlow : 0 < k := by
          rcases Nat.eq_zero_or_pos k with rfl | hk
          · omega
          · exact hk
        have hhigh : g * k < g * 2 := by omega
        have htwo := Nat.lt_of_mul_lt_mul_left hhigh
        omega
      have hsum : r * p + j * p = g * p := by
        rw [← Nat.add_mul, hk, hone, Nat.mul_one]
      omega
    · rw [Nat.div_eq_of_lt (Nat.lt_of_not_le hcarry), Nat.add_zero]

end Carry

section Units

theorem TimeUnit.nanos_pos
    (unit : TimeUnit) :
    0 < unit.nanos := by
  cases unit <;> decide

theorem TimeUnit.nanos_lt
    (unit : TimeUnit) :
    unit.nanos < Nat.pow 2 128 := by
  cases unit <;> decide

theorem TimeUnit.oddFactor_pos
    (unit : TimeUnit) :
    0 < unit.oddFactor := by
  cases unit <;> decide

theorem TimeUnit.oddFactor_eq_one_or
    (unit : TimeUnit) :
    unit.oddFactor = 1 ∨ unit = minute ∨ unit = hour := by
  cases unit <;> decide

theorem TimeUnit.oddFactor_le_stride
    (unit : TimeUnit) :
    unit.oddFactor ≤ unit.stride := by
  cases unit <;> decide

theorem TimeUnit.stride_mul_nanos
    (unit : TimeUnit) :
    unit.stride * unit.nanos = Nat.pow 10 Component.fractionDigits * unit.oddFactor := by
  cases unit <;> decide

/-- The whole nanoseconds in a number of small parts of a unit, in which the factors two and five
are cancelled. -/
theorem TimeUnit.div_eq
    (unit : TimeUnit)
    (n p : Nat) :
    n * unit.nanos / (Nat.pow 10 Component.fractionDigits * p) =
      n * unit.oddFactor / (unit.stride * p) := by
  calc
    n * unit.nanos / (Nat.pow 10 Component.fractionDigits * p) =
        n * unit.nanos * unit.oddFactor /
          (Nat.pow 10 Component.fractionDigits * p * unit.oddFactor) :=
      (Nat.mul_div_mul_right _ _ unit.oddFactor_pos).symm
    _ = n * unit.oddFactor * unit.nanos / (unit.stride * p * unit.nanos) := by
      rw [Nat.mul_right_comm n, Nat.mul_right_comm _ p, ← unit.stride_mul_nanos,
        Nat.mul_right_comm unit.stride]
    _ = n * unit.oddFactor / (unit.stride * p) :=
      Nat.mul_div_mul_right _ _ unit.nanos_pos

end Units

namespace Component

theorem exactNanos_eq
    (c : Component) :
    c.exactNanos =
      digitsValue c.whole * c.unit.nanos +
        digitsValue c.fraction * c.unit.nanos / Nat.pow 10 c.fraction.length := by
  have hpos : 0 < Nat.pow 10 c.fraction.length := Nat.pow_pos (by decide)
  rw [exactNanos, digitsValue_append, Nat.add_mul, Nat.mul_right_comm, Nat.mul_comm _ (Nat.pow _ _),
    Nat.mul_add_div hpos]

/-- A fraction whose digits are all kept is not cut short. -/
theorem CutShort.fractionDigits_lt
    {c : Component}
    (h : c.CutShort) :
    fractionDigits < c.fraction.length := by
  obtain ⟨missing, _, hpos, _, hle⟩ := h
  by_contra hshort
  have hkept : c.fraction.length ≤ fractionDigits := Nat.le_of_not_lt hshort
  rw [List.drop_of_length_le hkept, digitsValue_nil, Nat.mul_zero, Nat.sub_eq_zero_of_le hkept]
    at hle
  have hone : missing * Nat.pow 10 0 = missing := Nat.mul_one missing
  omega

/-- Only fractions of minutes and hours are cut short. -/
theorem CutShort.unit_eq
    {c : Component}
    (h : c.CutShort) :
    c.unit = .minute ∨ c.unit = .hour := by
  obtain ⟨missing, hlt, hpos, _⟩ := h
  rcases c.unit.oddFactor_eq_one_or with hone | hlarge
  · omega
  · exact hlarge

/-- A fraction that is cut short loses one nanosecond, and no other fraction loses any. -/
theorem exactNanos_cases
    {c : Component}
    (hdigits : Digits c.fraction) :
    (c.CutShort ∧ c.exactNanos = c.written + 1) ∨ (¬ c.CutShort ∧ c.exactNanos = c.written) := by
  by_cases hlength : c.fraction.length ≤ fractionDigits
  · refine Or.inr ⟨fun h => absurd h.fractionDigits_lt (Nat.not_lt_of_le hlength), ?_⟩
    have hplaces : min 18 c.fraction.length = c.fraction.length := Nat.min_eq_right hlength
    simp only [exactNanos_eq, written, hplaces, List.take_length]
  · have hplaces : min 18 c.fraction.length = fractionDigits :=
      Nat.min_eq_left (Nat.le_of_not_le hlength)
    have hdropped : digitsValue (c.fraction.drop fractionDigits) <
        Nat.pow 10 (c.fraction.length - fractionDigits) := by
      rw [← List.length_drop]
      exact digitsValue_lt fun d hd => hdigits d (List.mem_of_mem_drop hd)
    have hfraction := digitsValue_append (c.fraction.take fractionDigits)
      (c.fraction.drop fractionDigits)
    rw [List.take_append_drop, List.length_drop] at hfraction
    have hpow : Nat.pow 10 c.fraction.length =
        Nat.pow 10 fractionDigits * Nat.pow 10 (c.fraction.length - fractionDigits) := by
      rw [← Nat.add_sub_cancel' (Nat.le_of_not_le hlength)]
      simpa using Nat.pow_add 10 fractionDigits (c.fraction.length - fractionDigits)
    have hcut : c.written = digitsValue c.whole * c.unit.nanos +
        digitsValue (c.fraction.take fractionDigits) * c.unit.oddFactor / c.unit.stride := by
      have hdiv := c.unit.div_eq (digitsValue (c.fraction.take fractionDigits)) 1
      rw [Nat.mul_one, Nat.mul_one] at hdiv
      simp only [written, hplaces, hdiv]
    rw [exactNanos_eq, hfraction, hpow, c.unit.div_eq, hcut]
    rcases div_eq_or_carry c.unit.oddFactor_pos c.unit.oddFactor_le_stride hdropped with
      ⟨hshort, hcarry⟩ | ⟨hshort, hcarry⟩
    · exact Or.inl ⟨hshort, by rw [hcarry, Nat.add_assoc]⟩
    · exact Or.inr ⟨hshort, by rw [hcarry]⟩

/-- The first places of a fraction write less than a unit. -/
theorem fraction_lt
    {c : Component}
    (hdigits : Digits c.fraction)
    (places : Nat) :
    digitsValue (c.fraction.take places) * c.unit.nanos / Nat.pow 10 places < c.unit.nanos := by
  have hvalue : digitsValue (c.fraction.take places) < Nat.pow 10 places :=
    calc
      digitsValue (c.fraction.take places) < Nat.pow 10 (c.fraction.take places).length :=
        digitsValue_lt fun digit hdigit => hdigits digit (List.mem_of_mem_take hdigit)
      _ ≤ Nat.pow 10 places := Nat.pow_le_pow_right (by decide) (List.length_take_le _ _)
  exact Nat.div_lt_of_lt_mul (Nat.mul_lt_mul_of_pos_right hvalue c.unit.nanos_pos)

/-- A component that wraps around loses as many nanoseconds as 128 bits tell apart, and no other
component loses any by that. -/
theorem written_eq
    {c : Component}
    (hdigits : Digits c.fraction) :
    c.written = c.nanos + if c.Wraps then Nat.pow 2 128 else 0 := by
  rw [nanos_eq_worth, worth]
  split
  · rename_i hwraps
    obtain ⟨hfits, hpast⟩ := hwraps
    have hfraction := fraction_lt hdigits (min 18 c.fraction.length)
    have hunit : c.unit.nanos < Nat.pow 2 128 := c.unit.nanos_lt
    have htwice : c.written < Nat.pow 2 128 + Nat.pow 2 128 :=
      Nat.add_lt_add hfits (Nat.lt_trans hfraction hunit)
    rw [Nat.mod_eq_sub_mod hpast, Nat.mod_eq_of_lt (by omega), Nat.sub_add_cancel hpast]
  · rfl

/-- What is lost of the exact worth of a component. -/
theorem exactNanos_eq_nanos_add
    (c : Component)
    (hdigits : Digits c.fraction) :
    c.exactNanos =
      c.nanos + (if c.CutShort then 1 else 0) + (if c.Wraps then Nat.pow 2 128 else 0) := by
  have hwritten := written_eq hdigits
  rcases exactNanos_cases hdigits with ⟨hcut, hexact⟩ | ⟨hcut, hexact⟩
  · rw [if_pos hcut, hexact, hwritten, Nat.add_right_comm]
  · rw [if_neg hcut, hexact, hwritten, Nat.add_zero]

theorem WrittenAs.digits
    {c : Component}
    {s : List Char}
    (h : c.WrittenAs s) :
    Digits c.fraction := by
  obtain ⟨hnumber, _⟩ := h
  cases hnumber with
  | plain _ _ => simp [Digits]
  | pointed _ hfraction _ => exact hfraction

end Component

section Texts

theorem Spell.digits
    {cs : List Component}
    {s : List Char}
    (h : Spell cs s) :
    ∀ c ∈ cs, Digits c.fraction := by
  induction h with
  | nil => simp
  | cons hc _ ih => exact List.forall_mem_cons.mpr ⟨hc.digits, ih⟩

theorem total_eq_sum
    (cs : List Component) :
    total cs = (cs.map Component.nanos).sum := by
  induction cs with
  | nil => rfl
  | cons c cs ih => rw [total, ih, List.map_cons, List.sum_cons, c.nanos_eq_worth]

/-- The components that a text is written with add up to what is read. -/
theorem nanos_of_spell
    {raw : String}
    {d : Duration}
    {negative : Bool}
    {s : List Char}
    {cs : List Component}
    (hread : read raw = .ok d)
    (hsigned : Signed raw.toList negative s)
    (hspell : Spell cs s) :
    d.nanos = if negative then -(total cs : Int) else total cs := by
  obtain ⟨negative', s', n, hsigned', hmagnitude, hn, hd⟩ := read_eq_ok_iff.mp hread
  cases (splitSign_eq_iff.mpr hsigned').symm.trans (splitSign_eq_iff.mpr hsigned)
  have hok := readMagnitude_of_magnitude hmagnitude hn
  have hcs : cs ≠ [] := by
    rintro rfl
    cases hspell
    cases hok
  have hwritten : Magnitude s (total cs) := .components hspell hcs
  by_cases hfits : total cs ≤ limit
  · cases hok.symm.trans (readMagnitude_of_magnitude hwritten hfits)
    exact hd
  · have hfault := readMagnitude_of_faulty (hwritten.faulty (Nat.lt_of_not_le hfits))
    cases hok.symm.trans hfault

end Texts

/-- A duration that is read is the sum of its components, and a component counts for its exact worth
unless its fraction is cut short or takes it past 128 bits.  The first happens to minutes and hours
only, behind the eighteenth digit, and costs one nanosecond.  The second costs all that 128 bits
count. -/
theorem component_exact_iff
    {raw : String}
    {d : Duration}
    {negative : Bool}
    {s : List Char}
    {cs : List Component}
    (hread : read raw = .ok d)
    (hsigned : Signed raw.toList negative s)
    (hspell : Spell cs s) :
    (d.nanos =
        if negative then -((cs.map Component.nanos).sum : Int) else (cs.map Component.nanos).sum) ∧
      ∀ c ∈ cs, (c.nanos = c.exactNanos ↔ ¬ c.CutShort ∧ ¬ c.Wraps) ∧
        c.exactNanos =
          c.nanos + (if c.CutShort then 1 else 0) + (if c.Wraps then Nat.pow 2 128 else 0) ∧
        (c.CutShort → (c.unit = .minute ∨ c.unit = .hour) ∧ 18 < c.fraction.length) := by
  refine ⟨total_eq_sum cs ▸ nanos_of_spell hread hsigned hspell, fun c hc => ?_⟩
  have hloss := c.exactNanos_eq_nanos_add (hspell.digits c hc)
  refine ⟨?_, hloss, fun hcut => ⟨hcut.unit_eq, hcut.fractionDigits_lt⟩⟩
  have hpast : 0 < Nat.pow 2 128 := Nat.pow_pos (by decide)
  by_cases hcut : c.CutShort <;> by_cases hwraps : c.Wraps
  all_goals
    simp only [hcut, hwraps, if_true, if_false] at hloss
    simp only [hcut, hwraps, not_true, not_false_iff, and_true, and_false, iff_true, iff_false]
    omega

/-- A third of a minute, but for the digits behind the twentieth. -/
def thirdOfMinute : Component :=
  ⟨['0'], List.replicate 20 '3', .minute⟩

/-- A little more than the part of an hour that a nanosecond is. -/
def nanosecondOfHour : Component :=
  ⟨['0'], "0000000000002777778".toList, .hour⟩

theorem writtenAs_nanosecondOfHour :
    nanosecondOfHour.WrittenAs "0.0000000000002777778h".toList := by
  have htext : "0.0000000000002777778h".toList =
      (['0'] ++ '.' :: nanosecondOfHour.fraction) ++ ['h'] := by
    decide
  rw [htext]
  exact .mk (.pointed (by decide) (by decide) (Or.inl (by decide))) (by decide)

/-- Of two fractions with more than eighteen digits only the one that reaches a whole nanosecond
behind them is cut short. -/
theorem component_exact_iff_thirdOfMinute :
    (read "0.33333333333333333333m0.0000000000002777778h" =
          .ok ⟨19_999_999_999, by decide⟩ ∧
        Signed "0.33333333333333333333m0.0000000000002777778h".toList false
          ("0.33333333333333333333m".toList ++ "0.0000000000002777778h".toList) ∧
        Spell [thirdOfMinute, nanosecondOfHour]
          ("0.33333333333333333333m".toList ++ "0.0000000000002777778h".toList)) ∧
      thirdOfMinute.nanos = thirdOfMinute.exactNanos ∧
      nanosecondOfHour.exactNanos = nanosecondOfHour.nanos + 1 := by
  have hread : read "0.33333333333333333333m0.0000000000002777778h" =
      .ok ⟨19_999_999_999, by decide⟩ :=
    eq_ok_of_toOption_eq_some (by decide +kernel)
  have htext : "0.33333333333333333333m0.0000000000002777778h".toList =
      "0.33333333333333333333m".toList ++ "0.0000000000002777778h".toList := by
    decide
  have hsigned : Signed "0.33333333333333333333m0.0000000000002777778h".toList false
      ("0.33333333333333333333m".toList ++ "0.0000000000002777778h".toList) := by
    rw [htext]
    exact .bare (by decide) (by decide)
  have hminute : thirdOfMinute.WrittenAs "0.33333333333333333333m".toList := by
    have htext : "0.33333333333333333333m".toList =
        (['0'] ++ '.' :: thirdOfMinute.fraction) ++ ['m'] := by
      decide
    rw [htext]
    exact .mk (.pointed (by decide) (by decide) (Or.inl (by decide))) (by decide)
  have hspell : Spell [thirdOfMinute, nanosecondOfHour]
      ("0.33333333333333333333m".toList ++ "0.0000000000002777778h".toList) :=
    .cons hminute (.single writtenAs_nanosecondOfHour)
  obtain ⟨_, hcomponents⟩ := component_exact_iff hread hsigned hspell
  refine ⟨⟨hread, hsigned, hspell⟩, ?_, ?_⟩
  · exact (hcomponents thirdOfMinute (by simp)).1.mpr (by decide +kernel)
  · have hcut : nanosecondOfHour.CutShort := by decide +kernel
    have hwraps : ¬ nanosecondOfHour.Wraps := by decide +kernel
    obtain ⟨_, hloss, _⟩ := hcomponents nanosecondOfHour (by simp)
    rwa [if_pos hcut, if_neg hwraps, Nat.add_zero] at hloss

/-- A fraction of an hour that comes to more than a nanosecond is read as no time at all. -/
theorem component_cutShort_nanosecondOfHour :
    read "0.0000000000002777778h" = .ok ⟨0, by decide⟩ ∧
      Signed "0.0000000000002777778h".toList false "0.0000000000002777778h".toList ∧
      Spell [nanosecondOfHour] "0.0000000000002777778h".toList ∧
      nanosecondOfHour.nanos = 0 ∧ nanosecondOfHour.exactNanos = 1 := by
  refine ⟨eq_ok_of_toOption_eq_some (by decide +kernel), .bare (by decide) (by decide),
    .single writtenAs_nanosecondOfHour, ?_, ?_⟩
  · decide +kernel
  · decide +kernel

/-- Hours that fit 128 bits as nanoseconds, and a fraction that takes them a minute past these. -/
def hoursPastCount : Component :=
  ⟨"94522879700260684295381835".toList, "414380058738".toList, .hour⟩

-- what is left in 128 bits is a good duration
example :
    hoursPastCount.Wraps ∧
      read "94522879700260684295381835.414380058738h" = .ok ⟨60_000_000_000, by decide⟩ :=
  ⟨by decide +kernel, eq_ok_of_toOption_eq_some (by decide +kernel)⟩

end Duration
end ServingAdmin
