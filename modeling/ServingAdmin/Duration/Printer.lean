import ServingAdmin.Duration.Basic
import ServingAdmin.Text.Blank

/-!
# Writing durations

Two forms of a duration.  `text` is the full form: below one second a number of the
largest unit that makes its whole part positive, from one second on hours, minutes and
seconds, of which the hours and the minutes appear only when they are reached.  `brief`
drops a remainder of zero seconds behind the minutes and then one of zero minutes
behind the hours.
-/

namespace ServingAdmin
namespace Duration

open Text

/-- The whole part and the fraction of a count of parts of a unit that is split into 10^places
parts, the fraction without zeros at its end. -/
def decimalParts (places n : Nat) : List Char × List Char :=
  let rest := n % Nat.pow 10 places
  (digitsOf (n / Nat.pow 10 places),
    if rest = 0 then [] else '.' :: dropEndWhile (· = '0') (paddedDigits places rest))

/-- A count of parts of a unit followed by the name of the unit. -/
def decimalText (places n : Nat) (name : List Char) : List Char :=
  let (whole, fraction) := decimalParts places n
  whole ++ fraction ++ name

/-- The form with hours, minutes and seconds. -/
def clockText (n : Nat) : List Char :=
  let total := n / 1_000_000_000
  let inMinute := digitsOf (total % 60) ++ (decimalParts 9 n).2 ++ ['s']
  if total < 60 then inMinute
  else
    let inHour := digitsOf (total / 60 % 60) ++ 'm' :: inMinute
    if total < 3600 then inHour
    else digitsOf (total / 3600) ++ 'h' :: inHour

/-- The form of a positive count of nanoseconds. -/
def magnitudeText (n : Nat) : List Char :=
  if n < 1_000 then digitsOf n ++ ['n', 's']
  else if n < 1_000_000 then decimalText 3 n ['\u00B5', 's']
  else if n < 1_000_000_000 then decimalText 6 n ['m', 's']
  else clockText n

/-- The characters of the full form. -/
def chars (d : Duration) : List Char :=
  if d.nanos = 0 then ['0', 's']
  else if d.isNegative then '-' :: magnitudeText d.nanos.natAbs
  else magnitudeText d.nanos.natAbs

/-- The full form of a duration. -/
def text (d : Duration) : String := String.ofList d.chars

/-- Drops the last two characters when a text ends in a given way. -/
def dropTwoAfter (ending s : List Char) : List Char :=
  if ending.isSuffixOf s then s.take (s.length - 2) else s

/-- The form without remainders of zero. -/
def brief (d : Duration) : String :=
  String.ofList (dropTwoAfter ['h', '0', 'm'] (dropTwoAfter ['m', '0', 's'] d.chars))

end Duration
end ServingAdmin
