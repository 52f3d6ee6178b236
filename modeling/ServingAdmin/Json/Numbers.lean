import ServingAdmin.Binary64.Basic
import ServingAdmin.Json.Strings

/-!
# JSON numbers

Numbers are read behind their minus sign, if they have one.  `skipNumber` passes over a
number whose value does not matter, of any size.  `readNumber` gives the value of a
number: whole if it is written without fraction and exponent and fits 64 bits, real
otherwise.

A real number is read as its first digits, as many as fit 64 bits, and a power of ten.
Both are rounded to binary64 numbers before they are multiplied or divided, and the
result is rounded again, so it may differ in its last bit from the number that is
nearest to what is written.  The text is at fault when the product is past the range.
-/

namespace ServingAdmin
namespace Json

open Octet

/-- What a number says. -/
inductive Number
  | whole (n : Int)
  | real (value : Binary64)
  deriving DecidableEq

/-- Whether a text begins with a digit. -/
def startsWithDigit : List UInt8 → Bool
  | b :: _ => isDigit b
  | [] => false

/-- Splits the sign of an exponent off and says whether it is a minus. -/
def splitExponentSign : List UInt8 → Bool × List UInt8
  | [] => (false, [])
  | b :: rest =>
      if b = minus then (true, rest)
      else if b = plus then (false, rest)
      else (false, b :: rest)

/-- Passes over the digits of an exponent, behind its mark. -/
def skipExponent (s : List UInt8) : Except Fault (List UInt8) :=
  let digits := (splitExponentSign s).2
  if startsWithDigit digits then .ok (digits.dropWhile isDigit) else .error .malformed

/-- Passes over an exponent, if there is one. -/
def skipExponentPart (s : List UInt8) : Except Fault (List UInt8) :=
  match s with
  | b :: rest => if isExponentMark b then skipExponent rest else .ok s
  | [] => .ok s

/-- Passes over a fraction and an exponent, if there are any. -/
def skipFractionPart (s : List UInt8) : Except Fault (List UInt8) :=
  match s with
  | b :: rest =>
      if b = point then
        if startsWithDigit rest then skipExponentPart (rest.dropWhile isDigit)
        else .error .malformed
      else skipExponentPart s
  | [] => .ok s

/-- Passes over a number behind its sign. -/
def skipNumber (s : List UInt8) : Except Fault (List UInt8) :=
  match s with
  | [] => .error .malformed
  | b :: rest =>
      if b = zero then
        if startsWithDigit rest then .error .malformed else skipFractionPart rest
      else if isDigit b then skipFractionPart (rest.dropWhile isDigit)
      else .error .malformed

/-- The first digits of a run, behind those of a number, as many as fit 64 bits, and the
others. -/
def takeDigits (n : Nat) : List UInt8 → Nat × List UInt8
  | [] => (n, [])
  | b :: rest =>
      if isDigit b then
        let m := n * 10 + (b.toNat - 0x30)
        if m < 0x1_0000_0000_0000_0000 then takeDigits m rest else (n, b :: rest)
      else (n, b :: rest)

/-- The number that digits write. -/
def exponentValue (digits : List UInt8) : Nat :=
  digits.foldl (fun n b => n * 10 + (b.toNat - 0x30)) 0

/-- The largest power of ten in the range of binary64. -/
def largestPower : Nat := 308

/-- The units of a power of ten, rounded. -/
def powerUnits (k : Nat) : Nat := Binary64.nearest (Nat.pow 10 k * Binary64.unitsPerOne) 1

/-- Divides units by a power of ten, in steps if the power is out of range. -/
def scaleDown (units k : Nat) : Nat :=
  if _h : k ≤ largestPower then
    Binary64.nearest (units * Binary64.unitsPerOne) (powerUnits k)
  else if units = 0 then 0
  else
    scaleDown (Binary64.nearest (units * Binary64.unitsPerOne) (powerUnits largestPower))
      (k - largestPower)
termination_by k
decreasing_by
  unfold largestPower at *
  omega

/-- The units of digits times a power of ten, if they are in the range of binary64. -/
def realUnits? (digits : Nat) (exponent : Int) : Option Nat :=
  let units := Binary64.nearest (digits * Binary64.unitsPerOne) 1
  if exponent < 0 then some (scaleDown units exponent.natAbs)
  else if digits = 0 then some 0
  else if largestPower < exponent then none
  else
    let product := Binary64.nearest (units * powerUnits exponent.toNat) Binary64.unitsPerOne
    if product < Binary64.unitsLimit then some product else none

/-- A real number of which everything is read. -/
def realPart (negative : Bool) (digits : Nat) (exponent : Int) (rest : List UInt8) :
    Part Number :=
  match realUnits? digits exponent with
  | some units => .ok (.real (.finite negative units), rest)
  | none => .error .malformed

/-- Reads the exponent of a number, behind its mark. -/
def readExponent (negative : Bool) (digits : Nat) (exponent : Int) (s : List UInt8) :
    Part Number :=
  let signed := splitExponentSign s
  if signed.2 = [] then .error .truncated
  else if startsWithDigit signed.2 then
    let n := exponentValue (signed.2.takeWhile isDigit)
    realPart negative digits (if signed.1 then exponent - n else exponent + n)
      (signed.2.dropWhile isDigit)
  else .error .malformed

/-- Reads what is left of a real number behind its digits. -/
def readExponentPart (negative : Bool) (digits : Nat) (exponent : Int) (s : List UInt8) :
    Part Number :=
  match s with
  | b :: rest =>
      if isExponentMark b then readExponent negative digits exponent rest
      else realPart negative digits exponent s
  | [] => realPart negative digits exponent s

/-- Reads the fraction of a number, behind its point. -/
def readFraction (negative : Bool) (digits : Nat) (exponent : Int) (s : List UInt8) :
    Part Number :=
  if s = [] then .error .truncated
  else if startsWithDigit s then
    let kept := takeDigits digits s
    let taken := s.length - kept.2.length
    readExponentPart negative kept.1 (exponent - taken) (kept.2.dropWhile isDigit)
  else .error .malformed

/-- The value of a number without fraction and exponent.  Zero with a minus and numbers below the
range of 64 bits are real. -/
def wholeNumber (negative : Bool) (n : Nat) : Number :=
  if negative then
    if n = 0 ∨ 0x8000_0000_0000_0000 < n then
      .real (.finite true (Binary64.nearest (n * Binary64.unitsPerOne) 1))
    else .whole (-n)
  else .whole n

/-- A number of which everything is read; `dropped` counts the digits that did not fit. -/
def wholePart (negative : Bool) (digits dropped : Nat) (rest : List UInt8) : Part Number :=
  if dropped = 0 then .ok (wholeNumber negative digits, rest) else realPart negative digits dropped rest

/-- Reads a number behind the digits of its whole part. -/
def readFractionPart (negative : Bool) (digits dropped : Nat) (s : List UInt8) : Part Number :=
  match s with
  | b :: tail =>
      if b = point then readFraction negative digits dropped tail
      else if isExponentMark b then readExponent negative digits dropped tail
      else wholePart negative digits dropped s
  | [] => wholePart negative digits dropped s

/-- Reads a number behind those of its first digits that fit. -/
def readNumberTail (negative : Bool) (digits : Nat) (s : List UInt8) : Part Number :=
  let rest := s.dropWhile isDigit
  readFractionPart negative digits (s.length - rest.length) rest

/-- Reads a number behind its sign. -/
def readNumber (negative : Bool) (s : List UInt8) : Part Number :=
  match s with
  | [] => .error .truncated
  | b :: rest =>
      if b = zero then
        if startsWithDigit rest then .error .malformed else readNumberTail negative 0 rest
      else if isDigit b then
        let kept := takeDigits 0 s
        readNumberTail negative kept.1 kept.2
      else .error .malformed

/-! ### What is left is shorter -/

theorem length_splitExponentSign_le (s : List UInt8) :
    (splitExponentSign s).2.length ≤ s.length := by
  unfold splitExponentSign
  split
  · exact Nat.le_refl _
  · split
    · exact Nat.le_succ _
    · split
      · exact Nat.le_succ _
      · exact Nat.le_refl _

theorem length_le_of_skipExponent {s rest : List UInt8} (h : skipExponent s = .ok rest) :
    rest.length ≤ s.length := by
  unfold skipExponent at h
  simp only at h
  split at h
  · obtain rfl := Except.ok.inj h
    exact Nat.le_trans (length_dropWhile_le _ _) (length_splitExponentSign_le s)
  · cases h

theorem length_le_of_skipExponentPart {s rest : List UInt8}
    (h : skipExponentPart s = .ok rest) : rest.length ≤ s.length := by
  unfold skipExponentPart at h
  split at h
  · split at h
    · exact Nat.le_succ_of_le (length_le_of_skipExponent h)
    · obtain rfl := Except.ok.inj h
      exact Nat.le_refl _
  · obtain rfl := Except.ok.inj h
    exact Nat.le_refl _

theorem length_le_of_skipFractionPart {s rest : List UInt8}
    (h : skipFractionPart s = .ok rest) : rest.length ≤ s.length := by
  unfold skipFractionPart at h
  split at h
  · split at h
    · split at h
      · exact Nat.le_succ_of_le
          (Nat.le_trans (length_le_of_skipExponentPart h) (length_dropWhile_le _ _))
      · cases h
    · exact length_le_of_skipExponentPart h
  · obtain rfl := Except.ok.inj h
    exact Nat.le_refl _

theorem length_lt_of_skipNumber {s rest : List UInt8} (h : skipNumber s = .ok rest) :
    rest.length < s.length := by
  unfold skipNumber at h
  split at h
  · cases h
  · split at h
    · split at h
      · cases h
      · exact Nat.lt_succ_of_le (length_le_of_skipFractionPart h)
    · split at h
      · exact Nat.lt_succ_of_le
          (Nat.le_trans (length_le_of_skipFractionPart h) (length_dropWhile_le _ _))
      · cases h

theorem length_takeDigits_le (n : Nat) (s : List UInt8) :
    (takeDigits n s).2.length ≤ s.length := by
  fun_induction takeDigits n s with
  | case1 => exact Nat.le_refl _
  | case2 =>
      rename_i ih
      exact Nat.le_succ_of_le ih
  | case3 => exact Nat.le_refl _
  | case4 => exact Nat.le_refl _

theorem length_le_of_realPart {neg : Bool} {d : Nat} {e : Int} {s rest : List UInt8}
    {n : Number} (h : realPart neg d e s = .ok (n, rest)) : rest.length ≤ s.length := by
  unfold realPart at h
  split at h
  · obtain ⟨-, rfl⟩ := Prod.mk.inj (Except.ok.inj h)
    exact Nat.le_refl _
  · cases h

theorem length_le_of_readExponent {neg : Bool} {d : Nat} {e : Int} {s rest : List UInt8}
    {n : Number} (h : readExponent neg d e s = .ok (n, rest)) : rest.length ≤ s.length := by
  unfold readExponent at h
  simp only at h
  split at h
  · cases h
  · split at h
    · exact Nat.le_trans (length_le_of_realPart h)
        (Nat.le_trans (length_dropWhile_le _ _) (length_splitExponentSign_le s))
    · cases h

theorem length_le_of_readExponentPart {neg : Bool} {d : Nat} {e : Int} {s rest : List UInt8}
    {n : Number} (h : readExponentPart neg d e s = .ok (n, rest)) : rest.length ≤ s.length := by
  unfold readExponentPart at h
  split at h
  · split at h
    · exact Nat.le_succ_of_le (length_le_of_readExponent h)
    · exact length_le_of_realPart h
  · exact length_le_of_realPart h

theorem length_le_of_readFraction {neg : Bool} {d : Nat} {e : Int} {s rest : List UInt8}
    {n : Number} (h : readFraction neg d e s = .ok (n, rest)) : rest.length ≤ s.length := by
  unfold readFraction at h
  simp only at h
  split at h
  · cases h
  · split at h
    · exact Nat.le_trans (length_le_of_readExponentPart h)
        (Nat.le_trans (length_dropWhile_le _ _) (length_takeDigits_le d s))
    · cases h

theorem length_le_of_wholePart {neg : Bool} {d k : Nat} {s rest : List UInt8} {n : Number}
    (h : wholePart neg d k s = .ok (n, rest)) : rest.length ≤ s.length := by
  unfold wholePart at h
  split at h
  · obtain ⟨-, rfl⟩ := Prod.mk.inj (Except.ok.inj h)
    exact Nat.le_refl _
  · exact length_le_of_realPart h

theorem length_le_of_readFractionPart {neg : Bool} {d k : Nat} {s rest : List UInt8}
    {n : Number} (h : readFractionPart neg d k s = .ok (n, rest)) :
    rest.length ≤ s.length := by
  unfold readFractionPart at h
  split at h
  · split at h
    · exact Nat.le_succ_of_le (length_le_of_readFraction h)
    · split at h
      · exact Nat.le_succ_of_le (length_le_of_readExponent h)
      · exact length_le_of_wholePart h
  · exact length_le_of_wholePart h

theorem length_le_of_readNumberTail {neg : Bool} {d : Nat} {s rest : List UInt8} {n : Number}
    (h : readNumberTail neg d s = .ok (n, rest)) : rest.length ≤ s.length :=
  Nat.le_trans (length_le_of_readFractionPart h) (length_dropWhile_le _ _)

theorem length_le_of_readNumber {neg : Bool} {s rest : List UInt8} {n : Number}
    (h : readNumber neg s = .ok (n, rest)) : rest.length ≤ s.length := by
  unfold readNumber at h
  split at h
  · cases h
  · rename_i b tail
    split at h
    · split at h
      · cases h
      · exact Nat.le_succ_of_le (length_le_of_readNumberTail h)
    · split at h
      · exact Nat.le_trans (length_le_of_readNumberTail h) (length_takeDigits_le 0 (b :: tail))
      · cases h

end Json
end ServingAdmin
