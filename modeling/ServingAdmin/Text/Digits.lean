/-!
# Decimal digits

Runs of the digits 0 to 9, the numbers they write, and the digits of a number.  The
readers of decimal literals and of durations share them.
-/

namespace ServingAdmin
namespace Text

/-- The number that digits write behind those of another number. -/
def digitsValueFrom (n : Nat) (cs : List Char) : Nat :=
  cs.foldl (fun n c => n * 10 + (c.toNat - '0'.toNat)) n

/-- The number that digits write; without digits it is zero. -/
def digitsValue (cs : List Char) : Nat := digitsValueFrom 0 cs

/-- The decimal digits of a number. -/
def digitsOf (n : Nat) : List Char := Nat.toDigits 10 n

/-- Decimal digits with zeros in front up to a width. -/
def paddedDigits (width n : Nat) : List Char :=
  List.replicate (width - (digitsOf n).length) '0' ++ digitsOf n

/-- Splits a sign off and says whether it is a minus. -/
def splitSign : List Char → Bool × List Char
  | '-' :: rest => (true, rest)
  | '+' :: rest => (false, rest)
  | cs => (false, cs)

/-- Splits the digits at the front off. -/
def splitDigits (cs : List Char) : List Char × List Char :=
  (cs.takeWhile Char.isDigit, cs.dropWhile Char.isDigit)

/-- Splits the digits behind a point off, together with the point. -/
def splitFraction : List Char → List Char × List Char
  | '.' :: rest => splitDigits rest
  | cs => ([], cs)

/-- Nothing gets lost when digits are split off. -/
theorem splitDigits_append (cs : List Char) :
    (splitDigits cs).1 ++ (splitDigits cs).2 = cs := List.takeWhile_append_dropWhile

theorem length_splitDigits_le (cs : List Char) : (splitDigits cs).2.length ≤ cs.length := by
  have h := congrArg List.length (splitDigits_append cs)
  rw [List.length_append] at h
  omega

theorem length_splitFraction_le (cs : List Char) : (splitFraction cs).2.length ≤ cs.length := by
  unfold splitFraction
  split
  · rename_i rest
    have := length_splitDigits_le rest
    simp only [List.length_cons]
    omega
  · exact Nat.le_refl _

end Text
end ServingAdmin
