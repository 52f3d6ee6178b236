import ServingAdmin.Calendar.Date

/-!
# Timestamps

A timestamp is a date and a time of day in universal time, down to the nanosecond.  The
second may be a leap second, which is allowed at the end of any minute.

Times of other zones differ by whole minutes, less than a day, so going over to
universal time changes the minute of the day and perhaps the date, and nothing else.
-/

namespace ServingAdmin
namespace Calendar

/-- The minutes of a day. -/
def minutesPerDay : Nat := 24 * 60

/-- The nanoseconds of a second. -/
def nanosPerSecond : Nat := 1_000_000_000

/-- A date and a time in universal time. -/
structure Timestamp where
  date : Date
  minute : Nat
  second : Nat
  nanos : Nat
  minute_lt : minute < minutesPerDay
  second_le : second ≤ 60
  nanos_lt : nanos < nanosPerSecond
  deriving DecidableEq

/-- A time of day. -/
structure Clock where
  hour : Nat
  minute : Nat
  second : Nat
  nanos : Nat
  deriving DecidableEq

/-- Whether a time of day exists. -/
def Clock.IsTime (c : Clock) : Prop :=
  c.hour < 24 ∧ c.minute < 60 ∧ c.second ≤ 60 ∧ c.nanos < nanosPerSecond

instance (c : Clock) : Decidable c.IsTime := inferInstanceAs (Decidable (_ ∧ _))

/-- Goes over from minutes that are counted from the start of a date, and may lie up to a day
before or behind it, to minutes of a day. -/
def wrapMinutes (date : Date) (minutes : Int) : Option (Date × Int) :=
  if minutes < 0 then date.previous?.map (·, minutes + minutesPerDay)
  else if minutes < minutesPerDay then some (date, minutes)
  else date.next?.map (·, minutes - minutesPerDay)

namespace Timestamp

/-- The timestamp of a local date and time, of which the zone is ahead of universal time by a
number of minutes. -/
def ofLocal? (date : Date) (clock : Clock) (ahead : Int) : Option Timestamp :=
  if hclock : clock.IsTime then
    match wrapMinutes date (60 * clock.hour + clock.minute - ahead) with
    | none => none
    | some (date, minutes) =>
        if hminutes : minutes.toNat < minutesPerDay then
          some ⟨date, minutes.toNat, clock.second, clock.nanos, hminutes, hclock.2.2.1,
            hclock.2.2.2⟩
        else none
  else none

/-- The hour. -/
def hour (t : Timestamp) : Nat := t.minute / 60

/-- The minute of the hour. -/
def minuteOfHour (t : Timestamp) : Nat := t.minute % 60

end Timestamp
end Calendar
end ServingAdmin
