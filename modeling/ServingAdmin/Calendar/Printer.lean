import ServingAdmin.Calendar.Timestamp
import ServingAdmin.Text.Digits

/-!
# Writing timestamps

The form of a timestamp in universal time.  All numbers are filled up with zeros, a year
that has not four digits gets a sign, and the fraction of a second is written in three,
six or nine digits, the fewest that lose nothing; a fraction of zero is left out.
-/

namespace ServingAdmin
namespace Calendar

open Text

/-- The form of a year. -/
def yearText (year : Int) : List Char :=
  if 0 ≤ year ∧ year ≤ 9999 then paddedDigits 4 year.natAbs
  else (if year < 0 then '-' else '+') :: paddedDigits 4 year.natAbs

/-- The form of the fraction of a second. -/
def fractionText (nanos : Nat) : List Char :=
  if nanos = 0 then []
  else if nanos % 1_000_000 = 0 then '.' :: paddedDigits 3 (nanos / 1_000_000)
  else if nanos % 1_000 = 0 then '.' :: paddedDigits 6 (nanos / 1_000)
  else '.' :: paddedDigits 9 nanos

/-- The form of a date. -/
def Date.chars (d : Date) : List Char :=
  yearText d.year ++ '-' :: paddedDigits 2 d.month ++ '-' :: paddedDigits 2 d.day

namespace Timestamp

/-- The form of the time of day. -/
def clockChars (t : Timestamp) : List Char :=
  paddedDigits 2 t.hour ++ ':' :: paddedDigits 2 t.minuteOfHour ++
    ':' :: paddedDigits 2 t.second ++ fractionText t.nanos

/-- The form of a timestamp. -/
def text (t : Timestamp) : String :=
  String.ofList (t.date.chars ++ 'T' :: t.clockChars ++ ['Z'])

end Timestamp
end Calendar
end ServingAdmin
