import ServingAdmin.Binary64.Basic
import ServingAdmin.Text.Digits

/-!
# Decimal numerals

Two ways to write a number in decimal digits, neither of which uses an exponent.

* `fixed` rounds the exact value to a given number of places; a value in the middle
  between two numerals goes to the one with the even last digit.
* `shortest` gives as few places as still read back as the number.  Where two numerals
  with that many places do, it gives the nearer one, and of two equally near ones the
  larger.  Numbers below 2^53 are written so; of those `shortest` is the numeral with
  the fewest digits, as neighbouring numbers are at most one apart.
-/

namespace ServingAdmin
namespace Binary64

open Text

/-- The numeral of a count of units of the last place. -/
def numeral (places n : Nat) : List Char :=
  if places = 0 then digitsOf n
  else digitsOf (n / Nat.pow 10 places) ++ '.' :: paddedDigits places (n % Nat.pow 10 places)

/-- A minus for negative numbers, negative zero among them. -/
def signed (negative : Bool) (cs : List Char) : String :=
  String.ofList (if negative then '-' :: cs else cs)

/-- The numeral with a given number of places that is nearest to the exact value. -/
def fixed (places : Nat) : Binary64 → String
  | nan => "NaN"
  | infinite negative => signed negative ['i', 'n', 'f']
  | finite negative units =>
      signed negative (numeral places (roundHalfEven (units * Nat.pow 10 places) unitsPerOne))

/-- Whether a numeral reads as a count of units. -/
def readsAs (units places n : Nat) : Bool :=
  nearest (n * unitsPerOne) (Nat.pow 10 places) = units

/-- Of a numeral and the next one that which reads back, and of both the nearer one. -/
def nearerThatReads (readsBelow readsAbove belowIsNearer : Bool) (below : Nat) : Option Nat :=
  match readsBelow, readsAbove with
  | true, true => some (if belowIsNearer then below else below + 1)
  | true, false => some below
  | false, true => some (below + 1)
  | false, false => none

/-- The nearest numeral with a given number of places that reads as a count of units. -/
def candidate? (units places : Nat) : Option Nat :=
  let below := units * Nat.pow 10 places / unitsPerOne
  let rest := units * Nat.pow 10 places % unitsPerOne
  nearerThatReads (readsAs units places below) (readsAs units places (below + 1))
    (2 * rest < unitsPerOne) below

/-- The fewest places with a numeral that reads back, and this numeral.  With 1074 places the value
of every number is written exactly. -/
def shortestPlaces (units : Nat) : Nat × Nat :=
  let found := (List.range 1074).findSome? fun places =>
    (candidate? units places).map fun n => (places, n)
  found.getD (1074, units * Nat.pow 10 1074 / unitsPerOne)

/-- The numeral of a count of units that has the fewest places. -/
def shortestUnits (units : Nat) : List Char :=
  let found := shortestPlaces units
  numeral found.1 found.2

/-- The numeral that has the fewest places. -/
def shortest : Binary64 → String
  | nan => "NaN"
  | infinite negative => signed negative ['i', 'n', 'f']
  | finite negative units => signed negative (shortestUnits units)

end Binary64
end ServingAdmin
