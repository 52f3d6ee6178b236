import ServingAdmin.Binary64.Basic
import ServingAdmin.Text.Digits

/-!
# The fewest significant digits

A finite number has many decimals that read as it.  `shortest` gives one with the fewest
significant digits; of several with that many the nearest, and of two equally near ones
the one with the even last digit.  For each count of digits only the two neighbours of
the number on the grid of that many digits have to be tried, and with 17 digits one of
them always reads back.
-/

namespace ServingAdmin
namespace Binary64

open Text

/-- A decimal: digits times a power of ten. -/
structure Decimal where
  digits : Nat
  place : Int
  deriving DecidableEq

namespace Decimal

/-- The power of ten that the digits are multiplied with. -/
def scaleUp (place : Int) : Nat := Nat.pow 10 place.toNat

/-- The power of ten that the digits are divided by. -/
def scaleDown (place : Int) : Nat := Nat.pow 10 (-place).toNat

/-- The units of the number nearest to a decimal. -/
def units (d : Decimal) : Nat :=
  nearest (d.digits * scaleUp d.place * unitsPerOne) (scaleDown d.place)

/-- The decimal of one digit that ten of its units make. -/
def carried (d : Decimal) : Decimal := if d.digits = 10 then ⟨1, d.place + 1⟩ else d

/-- The power of ten that the first digit of a positive number counts. -/
def leadingPlace (units : Nat) : Int :=
  (digitsOf (units * Nat.pow 10 margin / unitsPerOne)).length - 1 - margin
where
  /-- Multiplied with this power of ten, every positive number is at least one. -/
  margin : Nat := 340

/-- The nearest decimal that reads as a count of units, if its last digit counts a given power
of ten. -/
def candidate? (units : Nat) (place : Int) : Option Decimal :=
  let num := units * scaleDown place
  let den := unitsPerOne * scaleUp place
  let below := num / den
  let rest := num % den
  let first := if 2 * rest < den ∨ 2 * rest = den ∧ below % 2 = 0 then below else below + 1
  let second := if first = below then below + 1 else below
  ([first, second].map fun digits => Decimal.mk digits place).find?
    fun d => d.units = units

/-- The decimal with the fewest digits that reads as a positive count of units. -/
def shortest (units : Nat) : Decimal :=
  let lead := leadingPlace units
  match (List.range 17).findSome? fun (k : Nat) => candidate? units (lead - k) with
  | some d => d.carried
  | none => ⟨units * scaleDown (-1074) / unitsPerOne, -1074⟩

end Decimal
end Binary64
end ServingAdmin
