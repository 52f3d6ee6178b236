import Mathlib.Logic.Basic
import ServingAdmin.Duration.Printer
import ServingAdmin.Proofs.Duration.Grammar
import ServingAdmin.Proofs.Text.Digits

/-!
# The canonical texts of durations

Of the many texts for a duration one is canonical.  Below one second it is a number of the
largest unit that is reached.  From one second on it has hours, minutes and seconds, of which
the hours and the minutes are there exactly if they are reached, and the minutes and seconds
stay below sixty.  No number has a zero in front that it does not need, and no fraction has one
at its end.

The text of every duration is its canonical one.
-/

namespace ServingAdmin
namespace Duration

open Text

section Texts

/-- The name under which a unit is shown. -/
def TimeUnit.symbol : TimeUnit → List Char
  | nanosecond => ['n', 's']
  | microsecond => ['\u00B5', 's']
  | millisecond => ['m', 's']
  | second => ['s']
  | minute => ['m']
  | hour => ['h']

/-- The units in which counts below one second are shown. -/
def smallUnits : List TimeUnit := [.nanosecond, .microsecond, .millisecond]

/-- The digits of a number, without a zero in front of others. -/
structure Numeral
    (s : List Char)
    (n : Nat) :
    Prop where
  digits : Digits s
  ne_nil : s ≠ []
  value : digitsValue s = n
  noZero : s.head? = some '0' → s = ['0']

/-- The fraction for a count of parts of which 10^places make up a unit.  It does not end with a
zero, and there is none when there are no parts. -/
inductive Fraction (places : Nat) : List Char → Nat → Prop
  | none :
      Fraction places [] 0
  | digits
      {s : List Char}
      {zeros : Nat} :
      Digits s →
        s ≠ [] →
          s.getLast? ≠ some '0' →
            s.length + zeros = places →
              Fraction places ('.' :: s) (digitsValue s * Nat.pow 10 zeros)

/-- The hours or the minutes of a count of nanoseconds, which are there exactly if the count reaches
their unit. -/
inductive ClockPart (n : Nat) (unit : TimeUnit) (count : Nat) : List Char → Prop
  | reached
      {s : List Char} :
      unit.nanos ≤ n →
        Numeral s count →
          ClockPart n unit count (s ++ unit.symbol)
  | notReached :
      n < unit.nanos →
        ClockPart n unit count []

/-- The canonical text of a count of nanoseconds without a sign. -/
inductive CanonicalMagnitude : List Char → Nat → Prop
  | zero :
      CanonicalMagnitude ['0', 's'] 0
  | small
      {n places : Nat}
      {unit : TimeUnit}
      {whole fraction : List Char} :
      n < TimeUnit.second.nanos →
        unit ∈ smallUnits →
          1 ≤ n / unit.nanos →
            (∀ larger ∈ smallUnits, 1 ≤ n / larger.nanos → larger.nanos ≤ unit.nanos) →
              unit.nanos = Nat.pow 10 places →
                Numeral whole (n / unit.nanos) →
                  Fraction places fraction (n % unit.nanos) →
                    CanonicalMagnitude (whole ++ fraction ++ unit.symbol) n
  | clock
      {n h m s parts : Nat}
      {hours minutes seconds fraction : List Char} :
      TimeUnit.second.nanos ≤ n →
        n = h * TimeUnit.hour.nanos + m * TimeUnit.minute.nanos + s * TimeUnit.second.nanos +
            parts →
          m < 60 →
            s < 60 →
              parts < TimeUnit.second.nanos →
                ClockPart n .hour h hours →
                  ClockPart n .minute m minutes →
                    Numeral seconds s →
                      Fraction 9 fraction parts →
                        CanonicalMagnitude
                          (hours ++ minutes ++ seconds ++ fraction ++ TimeUnit.second.symbol) n

/-- The canonical text of a count of nanoseconds, with a minus exactly if the count is negative. -/
def CanonicalText
    (s : List Char)
    (n : Int) :
    Prop :=
  ∃ magnitude, CanonicalMagnitude magnitude n.natAbs ∧
    s = if n < 0 then '-' :: magnitude else magnitude

end Texts

section Printing

theorem numeral_digitsOf
    (n : Nat) :
    Numeral (digitsOf n) n where
  digits := fun _ hc => isDigit_of_mem_digitsOf hc
  ne_nil := digitsOf_ne_nil n
  value := digitsValue_digitsOf n
  noZero := fun h => by
    rw [eq_zero_of_head?_digitsOf h]
    rfl

/-- The fraction of a decimal is the one of the parts that are left over. -/
theorem fraction_decimalParts
    {places : Nat}
    (hplaces : 0 < places)
    (n : Nat) :
    Fraction places (decimalParts places n).2 (n % Nat.pow 10 places) := by
  have hlt : n % Nat.pow 10 places < Nat.pow 10 places :=
    Nat.mod_lt _ (Nat.pow_pos (by decide))
  simp only [decimalParts]
  generalize n % Nat.pow 10 places = rest at hlt ⊢
  split
  · rename_i hrest
    rw [hrest]
    exact .none
  · rename_i hrest
    obtain ⟨zeros, hzeros⟩ := exists_zeros (paddedDigits places rest)
    have hlength := length_paddedDigits hplaces hlt
    have hvalue : digitsValue (paddedDigits places rest) = rest := digitsValue_paddedDigits
    have hdigits : Digits (paddedDigits places rest) := fun _ => isDigit_of_mem_paddedDigits
    have hlast : ∀ c, (dropEndWhile (· = '0') (paddedDigits places rest)).getLast? = some c →
        c ≠ '0' := by
      intro c hc
      simpa using not_of_getLast?_dropEndWhile hc
    generalize dropEndWhile (· = '0') (paddedDigits places rest) = kept at hzeros hlast ⊢
    rw [hzeros] at hlength hvalue hdigits
    rw [digitsValue_append, digitsValue_replicate_zero, List.length_replicate, Nat.add_zero]
      at hvalue
    rw [← hvalue]
    refine .digits (fun c hc => hdigits c (List.mem_append_left _ hc)) ?_ ?_ ?_
    · rintro rfl
      exact hrest (by rw [← hvalue]; exact Nat.zero_mul _)
    · intro hzero
      exact hlast '0' hzero rfl
    · simpa using hlength

/-- A number of a unit below a second is shown canonically in the largest unit that it reaches. -/
theorem canonical_decimalText
    {n places : Nat}
    (unit : TimeUnit)
    (hplaces : 0 < places)
    (hsmall : unit ∈ smallUnits)
    (hunit : unit.nanos = Nat.pow 10 places)
    (hreached : unit.nanos ≤ n)
    (hlargest : ∀ larger ∈ smallUnits, larger.nanos ≤ n → larger.nanos ≤ unit.nanos)
    (hn : n < TimeUnit.second.nanos) :
    CanonicalMagnitude (decimalText places n unit.symbol) n := by
  have hpos : ∀ unit : TimeUnit, 0 < unit.nanos := by
    intro unit
    cases unit <;> decide
  have hfraction := fraction_decimalParts hplaces n
  rw [← hunit] at hfraction
  refine .small hn hsmall (Nat.div_pos hreached (hpos unit)) ?_ hunit ?_ hfraction
  · intro larger hlarger hone
    exact hlargest larger hlarger ((Nat.one_le_div_iff (hpos larger)).mp hone)
  · rw [hunit]
    exact numeral_digitsOf _

theorem canonical_clockText
    {n : Nat}
    (hn : TimeUnit.second.nanos ≤ n) :
    CanonicalMagnitude (clockText n) n := by
  have hfraction : Fraction 9 (decimalParts 9 n).2 (n % 1_000_000_000) :=
    fraction_decimalParts (by decide) n
  simp only [TimeUnit.nanos] at hn
  simp only [clockText]
  generalize (decimalParts 9 n).2 = fraction at hfraction ⊢
  split
  · rename_i hminute
    have hclock := CanonicalMagnitude.clock (n := n) (h := 0) (m := 0) hn
      (by simp only [TimeUnit.nanos]; omega) (by decide) (Nat.mod_lt _ (by decide))
      (Nat.mod_lt _ (by decide))
      (.notReached (by simp only [TimeUnit.nanos]; omega))
      (.notReached (by simp only [TimeUnit.nanos]; omega))
      (numeral_digitsOf (n / 1_000_000_000 % 60)) hfraction
    simpa [TimeUnit.symbol] using hclock
  · rename_i hminute
    split
    · rename_i hhour
      have hclock := CanonicalMagnitude.clock (n := n) (h := 0) hn
        (by simp only [TimeUnit.nanos]; omega) (Nat.mod_lt _ (by decide))
        (Nat.mod_lt _ (by decide)) (Nat.mod_lt _ (by decide))
        (.notReached (by simp only [TimeUnit.nanos]; omega))
        (.reached (by simp only [TimeUnit.nanos]; omega)
          (numeral_digitsOf (n / 1_000_000_000 / 60 % 60)))
        (numeral_digitsOf (n / 1_000_000_000 % 60)) hfraction
      simpa [TimeUnit.symbol] using hclock
    · rename_i hhour
      have hclock := CanonicalMagnitude.clock (n := n) hn
        (by simp only [TimeUnit.nanos]; omega) (Nat.mod_lt _ (by decide))
        (Nat.mod_lt _ (by decide)) (Nat.mod_lt _ (by decide))
        (.reached (by simp only [TimeUnit.nanos]; omega)
          (numeral_digitsOf (n / 1_000_000_000 / 3600)))
        (.reached (by simp only [TimeUnit.nanos]; omega)
          (numeral_digitsOf (n / 1_000_000_000 / 60 % 60)))
        (numeral_digitsOf (n / 1_000_000_000 % 60)) hfraction
      simpa [TimeUnit.symbol] using hclock

theorem canonical_magnitudeText
    {n : Nat}
    (hn : 0 < n) :
    CanonicalMagnitude (magnitudeText n) n := by
  have hsecond : TimeUnit.second.nanos = 1_000_000_000 := rfl
  unfold magnitudeText
  split
  · rename_i hmicro
    have hsmall : CanonicalMagnitude (digitsOf n ++ [] ++ TimeUnit.nanosecond.symbol) n := by
      have hunit : TimeUnit.nanosecond.nanos = Nat.pow 10 0 := rfl
      refine .small (by omega) (by decide) (by simpa [TimeUnit.nanos]) ?_ hunit ?_ ?_
      · simp [smallUnits, TimeUnit.nanos]
        omega
      · simpa [TimeUnit.nanos] using numeral_digitsOf n
      · simpa [TimeUnit.nanos, Nat.mod_one] using Fraction.none
    simpa [TimeUnit.symbol] using hsmall
  · split
    · refine canonical_decimalText .microsecond (by decide) (by decide) rfl ?_ ?_ ?_
      all_goals simp only [smallUnits, TimeUnit.nanos, List.mem_cons, List.not_mem_nil, or_false]
      · omega
      · rintro larger (rfl | rfl | rfl)
        · simp
        · simp
        · -- a millisecond is not reached
          simp
          omega
      · omega
    · split
      · refine canonical_decimalText .millisecond (by decide) (by decide) rfl ?_ ?_ ?_
        all_goals simp only [smallUnits, TimeUnit.nanos, List.mem_cons, List.not_mem_nil, or_false]
        · omega
        · rintro larger (rfl | rfl | rfl) <;> simp
        · omega
      · exact canonical_clockText (by omega)

/-- The text of a duration is canonical. -/
theorem canonicalText_text
    (d : Duration) :
    CanonicalText d.text.toList d.nanos := by
  rw [text, String.toList_ofList, chars]
  split
  · rename_i hzero
    rw [hzero]
    exact ⟨_, .zero, rfl⟩
  · rename_i hzero
    refine ⟨_, canonical_magnitudeText (Int.natAbs_pos.mpr hzero), ?_⟩
    simp only [isNegative, decide_eq_true_eq]

-- the minutes are reached with the hour, so they are there
example : text ⟨-3_600_500_000_000, by decide⟩ = "-1h0m0.5s" := by decide +kernel

end Printing

end Duration
end ServingAdmin
