import ServingAdmin.Calendar.Timestamp
import ServingAdmin.Text.Blank
import ServingAdmin.Text.Digits

/-!
# Reading timestamps

A timestamp is written as in `2021-06-07T08:09:10.5+02:00`: a date, the letter T or a
space, a time of day, and how far the zone is ahead of universal time.

* Numbers may be shorter than usual, but not longer; only a year with a sign may have any
  length.
* Blanks may stand before numbers, before the marks of the date and the time, and around
  the zone.
* Digits of the fraction past the ninth are dropped.
* The zone is `Z`, `UTC` or a sign with two digits for the hours and two for the minutes,
  between which colons and blanks may stand.  It is less than a day ahead or behind.
-/

namespace ServingAdmin
namespace Calendar

open Text

/-- Reads a number of at most so many digits, and of at least one. -/
def readDigits (width : Nat) (cs : List Char) : Option (Nat × List Char) :=
  let digits := (cs.take width).takeWhile Char.isDigit
  if digits = [] then none else some (digitsValue digits, cs.drop digits.length)

/-- Reads a number behind blanks. -/
def readNumber (width : Nat) (cs : List Char) : Option (Nat × List Char) :=
  readDigits width (cs.dropWhile isBlank)

/-- Reads a mark behind blanks. -/
def readMark (mark : Char) (cs : List Char) : Option (List Char) :=
  match cs.dropWhile isBlank with
  | c :: rest => if c = mark then some rest else none
  | [] => none

/-- Reads a year behind blanks. -/
def readYear (cs : List Char) : Option (Int × List Char) :=
  match cs.dropWhile isBlank with
  | '-' :: rest => (readDigits rest.length rest).map fun (n, rest') => (-(n : Int), rest')
  | '+' :: rest => (readDigits rest.length rest).map fun (n, rest') => ((n : Int), rest')
  | cs => (readDigits 4 cs).map fun (n, rest) => ((n : Int), rest)

/-- Reads a date. -/
def readDate (cs : List Char) : Option (Date × List Char) := do
  let (year, cs) ← readYear cs
  let (month, cs) ← readNumber 2 (← readMark '-' cs)
  let (day, cs) ← readNumber 2 (← readMark '-' cs)
  return (← Date.ofParts? year month day, cs)

/-- Reads the nanoseconds that a fraction behind a point counts for, if there is one. -/
def readFraction : List Char → Option (Nat × List Char)
  | '.' :: cs => do
      let (n, rest) ← readDigits 9 cs
      let missing := 9 - (cs.length - rest.length)
      return (n * Nat.pow 10 missing, rest.dropWhile Char.isDigit)
  | cs => some (0, cs)

/-- Reads a time of day. -/
def readClock (cs : List Char) : Option (Clock × List Char) := do
  let (hour, cs) ← readNumber 2 cs
  let (minute, cs) ← readNumber 2 (← readMark ':' cs)
  let (second, cs) ← readNumber 2 (← readMark ':' cs)
  let (nanos, cs) ← readFraction cs
  return (⟨hour, minute, second, nanos⟩, cs)

/-- Reads two digits. -/
def readTwoDigits : List Char → Option (Nat × List Char)
  | a :: b :: rest =>
      if a.isDigit ∧ b.isDigit then some (digitsValue [a, b], rest) else none
  | _ => none

/-- Reads the minutes of a zone behind its sign, if they are less than a day. -/
def readZoneMinutes (cs : List Char) : Option (Nat × List Char) := do
  let (hours, cs) ← readTwoDigits cs
  let (minutes, cs) ← readTwoDigits (cs.dropWhile fun c => c = ':' || isBlank c)
  if minutes < 60 ∧ hours < 24 then return (60 * hours + minutes, cs) else none

/-- Splits off the name of universal time, in letters of any case. -/
def dropUniversal? : List Char → Option (List Char)
  | a :: b :: c :: rest =>
      if [a, b, c].map Char.toLower = ['u', 't', 'c'] then some rest else none
  | _ => none

/-- Reads how many minutes a zone is ahead of universal time. -/
def readZone (cs : List Char) : Option (Int × List Char) :=
  match dropUniversal? cs with
  | some rest => some (0, rest)
  | none =>
      match cs with
      | [] => none
      | c :: rest =>
          if c = 'Z' ∨ c = 'z' then some (0, rest)
          else if c = '+' then
            (readZoneMinutes rest).map fun (minutes, rest') => ((minutes : Int), rest')
          else if c = '-' ∨ c = '\u2212' then
            (readZoneMinutes rest).map fun (minutes, rest') => (-(minutes : Int), rest')
          else none

/-- Passes over what stands between a date and a time of day. -/
def readSeparator : List Char → Option (List Char)
  | c :: rest => if c = 'T' ∨ c = 't' ∨ c = ' ' then some rest else none
  | [] => none

/-- The timestamp that a text writes. -/
def Timestamp.read? (s : String) : Option Timestamp := do
  let (date, cs) ← readDate s.toList
  let (clock, cs) ← readClock (← readSeparator cs)
  let (ahead, cs) ← readZone (cs.dropWhile isBlank)
  if cs.dropWhile isBlank = [] then ofLocal? date clock ahead else none

end Calendar
end ServingAdmin
