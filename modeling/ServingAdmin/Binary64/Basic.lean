/-!
# Binary64 numbers

A decimal setting is held as the nearest number of the 64-bit binary interchange
format.  The magnitude of a finite number is a whole multiple of 2^-1074, the least
positive number of the format, so it is kept as the count of these units: one is
2^1074 units, and every comparison of finite numbers is one of integers.

Rounding is exact arithmetic on natural numbers.  The numbers of the format around `n`
units lie `spacing n` apart; a quotient goes to the nearest of them, and from the
middle between two to the one that is an even multiple of the spacing.
-/

namespace ServingAdmin

/-- A number of the 64-bit binary format; a finite one counts units of 2^-1074. -/
inductive Binary64
  | nan
  | infinite (negative : Bool)
  | finite (negative : Bool) (units : Nat)
  deriving DecidableEq

namespace Binary64

/-- The number one. -/
def unitsPerOne : Nat := Nat.pow 2 1074

/-- The distance between neighbouring numbers of the format around a count of units. -/
def spacing (n : Nat) : Nat := Nat.pow 2 (n.log2 - 52)

/-- The whole number nearest to a quotient, the even one of two that are equally near. -/
def roundHalfEven (num den : Nat) : Nat :=
  let q := num / den
  let r := num % den
  if 2 * r < den then q
  else if den < 2 * r then q + 1
  else q + q % 2

/-- The count of units of the number nearest to a quotient of units. -/
def nearest (num den : Nat) : Nat :=
  let s := spacing (num / den)
  roundHalfEven num (den * s) * s

/-- The first count of units past the range of the format. -/
def unitsLimit : Nat := Nat.pow 2 2098

/-- A sign and a rounded count of units, infinite when the count is past the range. -/
def ofUnits (negative : Bool) (units : Nat) : Binary64 :=
  if units < unitsLimit then finite negative units else infinite negative

/-- The number nearest to a quotient. -/
def ofQuotient (negative : Bool) (num den : Nat) : Binary64 :=
  ofUnits negative (nearest (num * unitsPerOne) den)

/-- The value of a finite number in units, with its sign. -/
def signedUnits : Bool → Nat → Int
  | true, units => -(units : Int)
  | false, units => units

/-- The interchange form.  Past the subnormal numbers the exponent field counts the doublings
of the spacing, one more for the leading bit, which the fraction does not store. -/
def toBits : Binary64 → UInt64
  | nan => 0x7FF8000000000000
  | infinite negative => signBit negative + 0x7FF0000000000000
  | finite negative units =>
      let doublings := units.log2 - 52
      signBit negative + UInt64.ofNat (doublings * Nat.pow 2 52 + units / Nat.pow 2 doublings)
where
  /-- The sign stands in the first bit. -/
  signBit (negative : Bool) : UInt64 := if negative then 0x8000000000000000 else 0

end Binary64
end ServingAdmin
