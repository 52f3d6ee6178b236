/-!
# Form encoding

Texts as values of a query.  Letters, digits and four marks stand for themselves, a blank
becomes a plus sign, and every other octet is written in base sixteen behind a percent
sign.
-/

namespace ServingAdmin
namespace Text

/-- Whether an octet stands for itself. -/
def isPlainOctet (b : UInt8) : Bool :=
  let c := Char.ofNat b.toNat
  c.isAlphanum || c = '*' || c = '-' || c = '.' || c = '_'

/-- A digit in base sixteen, in upper case. -/
def upperHexDigit (n : Nat) : Char := (Nat.digitChar n).toUpper

/-- An octet as it is written. -/
def formEncodedOctet (b : UInt8) : List Char :=
  if isPlainOctet b then [Char.ofNat b.toNat]
  else if b = 0x20 then ['+']
  else ['%', upperHexDigit (b.toNat / 16), upperHexDigit (b.toNat % 16)]

/-- A text as a value of a query. -/
def formEncoded (s : String) : List Char := s.toUTF8.toList.flatMap formEncodedOctet

end Text
end ServingAdmin
