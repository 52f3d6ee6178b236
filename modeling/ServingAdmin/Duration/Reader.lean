import ServingAdmin.Duration.Basic
import ServingAdmin.Text.Digits

/-!
# Reading durations

A duration is written as an optional sign followed either by a bare zero or by
components such as `1h`, `30m` or `1.5s`.  A component is a decimal number, at least
one digit of which stands before or behind the point, and the name of a unit.  The
components add up.

The leftmost fault of a text decides its error.  Inside a component the number is
looked at first, then whether a unit is there, then its name; a sum past the limit is
noticed behind the component that reaches it.

A component is counted in 128 bits.  Whole units that do not fit these are an overflow
that is noticed, but the fraction is added without a check: a component whose whole units
just fit starts again from zero with its fraction.
-/

namespace ServingAdmin
namespace Duration

open Text

/-- Why a text is not a duration. -/
inductive Fault
  | malformed
  | missingUnit
  | unknownUnit (name : String)
  deriving DecidableEq

/-- The unit of a name.  The micro sign and the Greek letter both stand for micro. -/
def TimeUnit.ofName? (name : List Char) : Option TimeUnit :=
  if name = ['n', 's'] then some nanosecond
  else if name = ['u', 's'] ∨ name = ['\u00B5', 's'] ∨ name = ['\u03BC', 's'] then
    some microsecond
  else if name = ['m', 's'] then some millisecond
  else if name = ['s'] then some second
  else if name = ['m'] then some minute
  else if name = ['h'] then some hour
  else none

/-- A component as it is written. -/
structure Component where
  whole : List Char
  fraction : List Char
  unit : TimeUnit
  deriving DecidableEq

namespace Component

/-- Fraction digits past this many are dropped. -/
def fractionDigits : Nat := 18

/-- The number of counts that 128 bits can tell apart. -/
def counts : Nat := Nat.pow 2 128

/-- The nanoseconds that a component counts for, its fraction rounded down.  The sum wraps around
where the whole units fit the count and the fraction does not any more.  Whole units that do not fit
are past every limit, so nothing has to be said of their sum. -/
def nanos (c : Component) : Nat :=
  let kept := c.fraction.take fractionDigits
  let whole := digitsValue c.whole * c.unit.nanos
  let fraction := digitsValue kept * c.unit.nanos / Nat.pow 10 kept.length
  if whole < counts then (whole + fraction) % counts else whole + fraction

/-- Whether a character can stand in the name of a unit. -/
def isUnitChar (c : Char) : Bool := !(c = '.' || c.isDigit)

/-- Reads the component that a text begins with. -/
def read (s : List Char) : Except Fault (Component × List Char) :=
  let (whole, afterWhole) := splitDigits s
  let (fraction, afterNumber) := splitFraction afterWhole
  let name := afterNumber.takeWhile isUnitChar
  if whole = [] ∧ fraction = [] then .error .malformed
  else if name = [] then .error .missingUnit
  else
    match TimeUnit.ofName? name with
    | some unit => .ok (⟨whole, fraction, unit⟩, afterNumber.dropWhile isUnitChar)
    | none => .error (.unknownUnit (String.ofList name))

/-- A component takes up a part of the text. -/
theorem length_lt_of_read {s rest : List Char} {c : Component} (h : read s = .ok (c, rest)) :
    rest.length < s.length := by
  unfold read at h
  simp only at h
  split at h
  · cases h
  · split at h
    · cases h
    · rename_i hname
      split at h
      · cases h
        have hw := length_splitDigits_le s
        have hf := length_splitFraction_le (splitDigits s).2
        have hsplit := congrArg List.length
          (List.takeWhile_append_dropWhile (p := isUnitChar)
            (l := (splitFraction (splitDigits s).2).2))
        rw [List.length_append] at hsplit
        have hpos := List.length_pos_iff.mpr hname
        omega
      · cases h

end Component

/-- Adds the components of a text to a sum that has not passed the limit. -/
def readComponents (sum : { n : Nat // n ≤ limit }) (s : List Char) :
    Except Fault { n : Nat // n ≤ limit } :=
  if s = [] then .ok sum
  else
    match _h : Component.read s with
    | .error fault => .error fault
    | .ok (c, rest) =>
        if hsum : sum.val + c.nanos ≤ limit then readComponents ⟨sum.val + c.nanos, hsum⟩ rest
        else .error .malformed
termination_by s.length
decreasing_by exact Component.length_lt_of_read _h

/-- Reads a duration behind its sign. -/
def readMagnitude (s : List Char) : Except Fault { n : Nat // n ≤ limit } :=
  if s = ['0'] then .ok ⟨0, Nat.zero_le _⟩
  else if s = [] then .error .malformed
  else readComponents ⟨0, Nat.zero_le _⟩ s

/-- Reads a duration that makes up the whole text. -/
def read (raw : String) : Except Fault Duration :=
  let (negative, s) := splitSign raw.toList
  (readMagnitude s).map fun n => ofMagnitude negative n.val n.property

end Duration
end ServingAdmin
