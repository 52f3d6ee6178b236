import ServingAdmin.Duration.Reader

/-!
# How durations are written

The texts of durations, and the faults of other texts, without reading them: a duration is
a sign with a bare zero or with components, each of which is a number with the name of a
unit, and a text without one has a fault behind the components that are good.

A component counts for what its digits write.  Only where its whole units fit 128 bits and
its fraction takes the count past them, it counts for what is left in 128 bits.

The parts of a component have to be told apart where they meet.  A name ends where the
text ends or where a number begins, so this is said of what stands behind a component that
is at fault, and of what stands behind the good ones.
-/

namespace ServingAdmin
namespace Duration

open Text

/-- The names of a unit. -/
def TimeUnit.names : TimeUnit → List (List Char)
  | nanosecond => [['n', 's']]
  | microsecond => [['u', 's'], ['\u00B5', 's'], ['\u03BC', 's']]
  | millisecond => [['m', 's']]
  | second => [['s']]
  | minute => [['m']]
  | hour => [['h']]

/-- Characters that are all digits. -/
def Digits
    (s : List Char) :
    Prop :=
  ∀ c ∈ s, c.isDigit = true

/-- A text that begins with a digit or with a point. -/
def BeginsNumber : List Char → Prop
  | [] => False
  | c :: _ => c = '.' ∨ c.isDigit = true

/-- A name ends in front of such a text. -/
def EndsName
    (s : List Char) :
    Prop :=
  s = [] ∨ BeginsNumber s

/-- A decimal number with at least one digit, by its digits in front of the point and behind it. -/
inductive Number : List Char → List Char → List Char → Prop
  | plain
      {whole : List Char} :
      Digits whole →
        whole ≠ [] →
          Number whole whole []
  | pointed
      {whole fraction : List Char} :
      Digits whole →
        Digits fraction →
          (whole ≠ [] ∨ fraction ≠ []) →
            Number (whole ++ '.' :: fraction) whole fraction

/-- A component is written as a number with the name of its unit. -/
inductive Component.WrittenAs : Component → List Char → Prop
  | mk
      {whole fraction number name : List Char}
      {unit : TimeUnit} :
      Number number whole fraction →
        name ∈ unit.names →
          WrittenAs ⟨whole, fraction, unit⟩ (number ++ name)

/-- Components are written one behind the other. -/
inductive Spell : List Component → List Char → Prop
  | nil :
      Spell [] []
  | cons
      {c : Component}
      {cs : List Component}
      {s rest : List Char} :
      c.WrittenAs s →
        Spell cs rest →
          Spell (c :: cs) (s ++ rest)

/-- The nanoseconds that the digits of a component write: those of its whole units and, rounded
down, those of the first places of its fraction. -/
def Component.written
    (c : Component) :
    Nat :=
  let places := min 18 c.fraction.length
  digitsValue c.whole * c.unit.nanos +
    digitsValue (c.fraction.take places) * c.unit.nanos / Nat.pow 10 places

/-- The whole units of a component fit 128 bits, but with its fraction they do not. -/
def Component.Wraps
    (c : Component) :
    Prop :=
  digitsValue c.whole * c.unit.nanos < Nat.pow 2 128 ∧ Nat.pow 2 128 ≤ c.written

instance (c : Component) : Decidable c.Wraps :=
  inferInstanceAs (Decidable (_ ∧ _))

/-- The nanoseconds that a component counts for: what its digits write, unless that wraps around. -/
def Component.worth
    (c : Component) :
    Nat :=
  if c.Wraps then c.written % Nat.pow 2 128 else c.written

/-- The nanoseconds that components add up to. -/
def total : List Component → Nat
  | [] => 0
  | c :: cs => c.worth + total cs

/-- A text without a sign that is written for a count of nanoseconds. -/
inductive Magnitude : List Char → Nat → Prop
  | zero :
      Magnitude ['0'] 0
  | components
      {cs : List Component}
      {s : List Char} :
      Spell cs s →
        cs ≠ [] →
          Magnitude s (total cs)

/-- A text with an optional sign, by whether that is a minus and by what stands behind it. -/
inductive Signed : List Char → Bool → List Char → Prop
  | minus
      (s : List Char) :
      Signed ('-' :: s) true s
  | plus
      (s : List Char) :
      Signed ('+' :: s) false s
  | bare
      {s : List Char} :
      s.head? ≠ some '-' →
        s.head? ≠ some '+' →
          Signed s false s

/-- A text is written for a duration. -/
def Denotes
    (raw : String)
    (d : Duration) :
    Prop :=
  ∃ negative s n, Signed raw.toList negative s ∧ Magnitude s n ∧ n ≤ limit ∧
    d.nanos = if negative then -(n : Int) else n

/-- A text begins with a number. -/
def StartsWith
    (s number : List Char) :
    Prop :=
  number <+: s ∧ ∃ whole fraction, Number number whole fraction

/-- A text begins with a component that is at fault, where the components in front of it add up to
a sum. -/
inductive BadComponent (sum : Nat) : List Char → Fault → Prop
  | noDigit
      {s : List Char} :
      (∀ number, ¬ StartsWith s number) →
        BadComponent sum s .malformed
  | noUnit
      {number rest : List Char} :
      StartsWith (number ++ rest) number →
        (∀ longer, StartsWith (number ++ rest) longer → longer.length ≤ number.length) →
          EndsName rest →
            BadComponent sum (number ++ rest) .missingUnit
  | unknownUnit
      {number whole fraction name rest : List Char} :
      Number number whole fraction →
        name ≠ [] →
          (∀ c ∈ name, c ≠ '.' ∧ c.isDigit = false) →
            (∀ unit : TimeUnit, name ∉ unit.names) →
              EndsName rest →
                BadComponent sum (number ++ name ++ rest) (.unknownUnit (String.ofList name))
  | tooMuch
      {c : Component}
      {s rest : List Char} :
      c.WrittenAs s →
        EndsName rest →
          limit < sum + c.worth →
            BadComponent sum (s ++ rest) .malformed

/-- A text without a sign has a fault behind the components that it begins with. -/
def FaultyMagnitude
    (s : List Char)
    (fault : Fault) :
    Prop :=
  s ≠ ['0'] ∧
    ∃ cs good bad, s = good ++ bad ∧ Spell cs good ∧ total cs ≤ limit ∧
      (cs = [] ∨ BeginsNumber bad) ∧ BadComponent (total cs) bad fault

/-- A text has a fault. -/
def FaultIn
    (raw : String)
    (fault : Fault) :
    Prop :=
  ∃ negative s, Signed raw.toList negative s ∧ FaultyMagnitude s fault

theorem Component.worth_of_lt
    {c : Component}
    (h : c.written < Nat.pow 2 128) :
    c.worth = c.written :=
  if_neg fun hwraps => Nat.not_le_of_lt h hwraps.2

theorem Number.beginsNumber
    {number whole fraction : List Char}
    (h : Number number whole fraction)
    (rest : List Char) :
    BeginsNumber (number ++ rest) := by
  cases h with
  | plain hdigits hne =>
      cases number with
      | nil => exact absurd rfl hne
      | cons c cs => exact Or.inr (hdigits c List.mem_cons_self)
  | pointed hdigits _ _ =>
      cases whole with
      | nil => exact Or.inl rfl
      | cons c cs => exact Or.inr (hdigits c List.mem_cons_self)

theorem BeginsNumber.ne_nil
    {s : List Char}
    (h : BeginsNumber s) :
    s ≠ [] := by
  rintro rfl
  exact h

theorem Spell.beginsNumber
    {cs : List Component}
    {s : List Char}
    (h : Spell cs s)
    (hcs : cs ≠ [])
    (rest : List Char) :
    BeginsNumber (s ++ rest) := by
  cases h with
  | nil => exact absurd rfl hcs
  | cons hc _ =>
      obtain ⟨hnumber, _⟩ := hc
      simp only [List.append_assoc]
      exact hnumber.beginsNumber _

/-- Where components go on, the name in front of them ends. -/
theorem Spell.endsName
    {cs : List Component}
    {s rest : List Char}
    (h : Spell cs s)
    (hrest : EndsName rest) :
    EndsName (s ++ rest) := by
  by_cases hcs : cs = []
  · subst hcs
    cases h
    exact hrest
  · exact Or.inr (h.beginsNumber hcs rest)

end Duration
end ServingAdmin
