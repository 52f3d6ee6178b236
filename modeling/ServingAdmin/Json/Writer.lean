import ServingAdmin.Binary64.Shortest

/-!
# Writing JSON

The compact form of JSON values: no blanks, and strings in which only quotes, backslashes
and controls are escaped.  Five controls have letters of their own, the others are
written by number.

Real numbers have the fewest digits that read back, and always a point or an exponent.
The point is placed among the digits or next to them from 10^-5 up to 10^16.
-/

namespace ServingAdmin
namespace Json
namespace Writer

/-- The last two digits of a number in base sixteen. -/
def twoHexDigits (n : Nat) : List Char := [Nat.digitChar (n / 16 % 16), Nat.digitChar (n % 16)]

/-- A character as it stands in a string. -/
def stringChar (c : Char) : List Char :=
  if c = '"' then ['\\', '"']
  else if c = '\\' then ['\\', '\\']
  else if c = '\x08' then ['\\', 'b']
  else if c = '\x0c' then ['\\', 'f']
  else if c = '\n' then ['\\', 'n']
  else if c = '\r' then ['\\', 'r']
  else if c = '\t' then ['\\', 't']
  else if c.toNat < 0x20 then ['\\', 'u', '0', '0'] ++ twoHexDigits c.toNat
  else [c]

/-- A string. -/
def string (s : String) : List Char := '"' :: s.toList.flatMap stringChar ++ ['"']

/-- A whole number. -/
def whole (n : Int) : List Char :=
  if n < 0 then '-' :: Nat.toDigits 10 n.natAbs else Nat.toDigits 10 n.natAbs

/-- Digits with a power of ten, behind the first digit of which the point stands. -/
def scientific (digits : List Char) (exponent : Int) : List Char :=
  let fraction := digits.drop 1
  digits.take 1 ++ (if fraction = [] then [] else '.' :: fraction) ++ 'e' :: whole exponent

/-- A positive number with the digits and the place of its shortest decimal. -/
def decimal (digits : List Char) (place : Int) : List Char :=
  let point : Int := digits.length + place
  if 16 < point ∨ point ≤ -5 then scientific digits (point - 1)
  else if 0 ≤ place then digits ++ List.replicate place.toNat '0' ++ ['.', '0']
  else if 0 < point then digits.take point.toNat ++ '.' :: digits.drop point.toNat
  else '0' :: '.' :: List.replicate point.natAbs '0' ++ digits

/-- The units of a finite number. -/
def units (n : Nat) : List Char :=
  if n = 0 then ['0', '.', '0']
  else
    let d := Binary64.Decimal.shortest n
    decimal (Nat.toDigits 10 d.digits) d.place

/-- A real number; one that is not finite has no form of its own and is null. -/
def real (x : Binary64) : List Char :=
  match x with
  | .finite negative n => if negative then '-' :: units n else units n
  | _ => ['n', 'u', 'l', 'l']

/-- A boolean. -/
def boolean (b : Bool) : List Char := (if b then "true" else "false").toList

/-- Values with commas between them. -/
def separated (items : List (List Char)) : List Char := [','].intercalate items

/-- An array. -/
def array (items : List (List Char)) : List Char := '[' :: separated items ++ [']']

/-- A member of an object. -/
def member (m : String × List Char) : List Char := string m.1 ++ ':' :: m.2

/-- An object. -/
def object (members : List (String × List Char)) : List Char :=
  '\x7b' :: separated (members.map member) ++ ['\x7d']

end Writer
end Json
end ServingAdmin
