import ServingAdmin.Binary64.Basic
import ServingAdmin.Text.Digits

/-!
# Decimal literals

How the value of a decimal setting is read.  A literal has an optional sign and then
either one of the words `inf`, `infinity` and `nan` in letters of any case, or decimal
digits with an optional point among them and an optional exponent.  There is at least
one digit before the exponent and at least one in it.  Nothing may stand around a
literal, and its value is the nearest binary64 number.
-/

namespace ServingAdmin
namespace Binary64

open Text

/-- What a decimal literal says. -/
inductive Literal
  | nan
  | infinite (negative : Bool)
  | decimal (negative : Bool) (digits : Nat) (exponent : Int)
  deriving DecidableEq

/-- Why a text is not a decimal literal. -/
inductive LiteralFault
  | empty
  | malformed
  deriving DecidableEq

/-- The message of a fault. -/
def LiteralFault.message : LiteralFault → String
  | empty => "cannot parse float from empty string"
  | malformed => "invalid float literal"

namespace Literal

/-- Reads the exponent that stands behind the digits, zero when there is none. -/
def readExponent : List Char → Option Int
  | [] => some 0
  | c :: rest =>
      if c = 'e' ∨ c = 'E' then
        let (negative, cs) := splitSign rest
        if cs ≠ [] ∧ cs.all Char.isDigit then
          some (if negative then -(digitsValue cs : Int) else digitsValue cs)
        else none
      else none

/-- Reads the digits and the exponent of a number without sign. -/
def readDecimal (negative : Bool) (cs : List Char) : Option Literal :=
  let (whole, afterWhole) := splitDigits cs
  let (fraction, afterFraction) := splitFraction afterWhole
  if whole = [] ∧ fraction = [] then none
  else
    (readExponent afterFraction).map fun e =>
      decimal negative (digitsValue (whole ++ fraction)) (e - fraction.length)

/-- Reads a number without sign or one of the words. -/
def readUnsigned (negative : Bool) (cs : List Char) : Option Literal :=
  let word := String.ofList (cs.map Char.toLower)
  if word = "nan" then some nan
  else if word = "inf" ∨ word = "infinity" then some (infinite negative)
  else readDecimal negative cs

/-- Reads a literal that makes up the whole text. -/
def read (s : String) : Except LiteralFault Literal :=
  if s.isEmpty then .error .empty
  else
    let (negative, cs) := splitSign s.toList
    match readUnsigned negative cs with
    | some l => .ok l
    | none => .error .malformed

/-- The value of a literal.  An exponent that puts the number far beyond the range of the
format, or far below its least number, is decided without writing the power of ten out. -/
def value : Literal → Binary64
  | nan => .nan
  | infinite negative => .infinite negative
  | decimal negative digits exponent =>
      if digits = 0 then .finite negative 0
      else if 400 < exponent then .infinite negative
      else if exponent + digits.log2 < -400 then .finite negative 0
      else if 0 ≤ exponent then ofQuotient negative (digits * Nat.pow 10 exponent.toNat) 1
      else ofQuotient negative digits (Nat.pow 10 (-exponent).toNat)

end Literal

/-- The number that a text writes. -/
def read (s : String) : Except LiteralFault Binary64 :=
  (Literal.read s).map Literal.value

end Binary64
end ServingAdmin
