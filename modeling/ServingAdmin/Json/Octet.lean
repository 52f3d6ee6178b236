/-!
# Octets of JSON texts

A JSON text is read octet by octet, as the data of a secret need not be valid UTF-8.
All marks of the grammar lie within ASCII.
-/

namespace ServingAdmin
namespace Json
namespace Octet

/-- The double quote. -/
def quote : UInt8 := 0x22

/-- The backslash. -/
def backslash : UInt8 := 0x5C

/-- The comma. -/
def comma : UInt8 := 0x2C

/-- The colon. -/
def colon : UInt8 := 0x3A

/-- The bracket that opens an array. -/
def openArray : UInt8 := 0x5B

/-- The bracket that closes an array. -/
def closeArray : UInt8 := 0x5D

/-- The brace that opens an object. -/
def openObject : UInt8 := 0x7B

/-- The brace that closes an object. -/
def closeObject : UInt8 := 0x7D

/-- The minus sign. -/
def minus : UInt8 := 0x2D

/-- The plus sign. -/
def plus : UInt8 := 0x2B

/-- The decimal point. -/
def point : UInt8 := 0x2E

/-- The digit zero. -/
def zero : UInt8 := 0x30

/-- Whether an octet is one of the four blanks of the grammar. -/
def isBlank (b : UInt8) : Bool := b == 0x20 || b == 0x0A || b == 0x09 || b == 0x0D

/-- Whether an octet is a decimal digit. -/
def isDigit (b : UInt8) : Bool := 0x30 ≤ b && b ≤ 0x39

/-- Whether an octet begins an exponent. -/
def isExponentMark (b : UInt8) : Bool := b == 0x65 || b == 0x45

/-- Whether an octet is a control, which does not stand in a string. -/
def isControl (b : UInt8) : Bool := b < 0x20

/-- The value of a digit in base sixteen. -/
def hexValue? (b : UInt8) : Option Nat :=
  if isDigit b then some (b.toNat - 0x30)
  else if 0x41 ≤ b && b ≤ 0x46 then some (b.toNat - 0x41 + 10)
  else if 0x61 ≤ b && b ≤ 0x66 then some (b.toNat - 0x61 + 10)
  else none

end Octet

/-- A text from the first octet that is not blank. -/
def skipBlanks (s : List UInt8) : List UInt8 := s.dropWhile Octet.isBlank

theorem length_dropWhile_le {α : Type} (p : α → Bool) (s : List α) :
    (s.dropWhile p).length ≤ s.length := by
  induction s with
  | nil => exact Nat.le_refl _
  | cons x rest ih =>
      rw [List.dropWhile_cons]
      split
      · exact Nat.le_succ_of_le ih
      · exact Nat.le_refl _

theorem length_skipBlanks_le (s : List UInt8) : (skipBlanks s).length ≤ s.length :=
  length_dropWhile_le _ s

theorem length_lt_of_skipBlanks {s rest : List UInt8} {b : UInt8}
    (h : skipBlanks s = b :: rest) : rest.length < s.length := by
  have hle := length_skipBlanks_le s
  rw [h] at hle
  exact hle

end Json
end ServingAdmin
