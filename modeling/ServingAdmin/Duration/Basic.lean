import ServingAdmin.Binary64.Numeral

/-!
# Durations

A duration is a signed count of nanoseconds that fits 64 bits.  It is stored in a
config map as its number of seconds: the count is first taken to the nearest binary64
number, then divided by 10^9 and rounded again, and the result is written with the
fewest places that read back.
-/

namespace ServingAdmin

/-- A signed count of nanoseconds that fits 64 bits. -/
structure Duration where
  nanos : Int
  inRange : -0x8000_0000_0000_0000 ≤ nanos ∧ nanos < 0x8000_0000_0000_0000
  deriving DecidableEq

namespace Duration

/-- The units in which a duration is written. -/
inductive TimeUnit
  | nanosecond
  | microsecond
  | millisecond
  | second
  | minute
  | hour
  deriving DecidableEq

/-- The nanoseconds in a unit. -/
def TimeUnit.nanos : TimeUnit → Nat
  | nanosecond => 1
  | microsecond => 1000
  | millisecond => 1000 * 1000
  | second => 1000 * 1000 * 1000
  | minute => 60 * (1000 * 1000 * 1000)
  | hour => 60 * (60 * (1000 * 1000 * 1000))

/-- The largest magnitude that a text can write. -/
def limit : Nat := 0x7FFF_FFFF_FFFF_FFFF

/-- The duration of a sign and a magnitude up to the limit. -/
def ofMagnitude (negative : Bool) (n : Nat) (h : n ≤ limit) : Duration :=
  ⟨if negative then -(n : Int) else n, by
    unfold limit at h
    split <;> omega⟩

/-- The duration of a count of nanoseconds, if it fits. -/
def ofNanos? (n : Int) : Option Duration :=
  if h : -0x8000_0000_0000_0000 ≤ n ∧ n < 0x8000_0000_0000_0000 then some ⟨n, h⟩ else none

/-- The duration of a count of milliseconds, if it fits. -/
def ofMillis? (n : Int) : Option Duration := ofNanos? (n * TimeUnit.millisecond.nanos)

/-- The duration of a count of seconds, if it fits. -/
def ofSeconds? (n : Int) : Option Duration := ofNanos? (n * TimeUnit.second.nanos)

instance : LE Duration := ⟨fun a b => a.nanos ≤ b.nanos⟩
instance : LT Duration := ⟨fun a b => a.nanos < b.nanos⟩
instance (a b : Duration) : Decidable (a ≤ b) := inferInstanceAs (Decidable (a.nanos ≤ b.nanos))
instance (a b : Duration) : Decidable (a < b) := inferInstanceAs (Decidable (a.nanos < b.nanos))

/-- Whether the duration is below zero. -/
def isNegative (d : Duration) : Bool := d.nanos < 0

/-- Whether the duration has no fraction of a second. -/
def isWholeSeconds (d : Duration) : Bool := d.nanos % TimeUnit.second.nanos = 0

/-- The number of seconds, rounded when the count becomes binary and again by the division. -/
def seconds (d : Duration) : Binary64 :=
  let count := Binary64.nearest (d.nanos.natAbs * Binary64.unitsPerOne) 1
  .finite d.isNegative (Binary64.nearest count TimeUnit.second.nanos)

/-- The form in which a duration is stored. -/
def secondsText (d : Duration) : String := d.seconds.shortest ++ "s"

theorem eq_of_nanos_eq {a b : Duration} (h : a.nanos = b.nanos) : a = b := by
  cases a; cases b; cases h; rfl

/-- A text with a minus writes the opposite count. -/
@[simp] theorem nanos_ofMagnitude (negative : Bool) (n : Nat) (h : n ≤ limit) :
    (ofMagnitude negative n h).nanos = if negative then -(n : Int) else n := rfl

end Duration
end ServingAdmin
