import ServingAdmin.Problem
import ServingAdmin.Table.Basic

/-!
# Printing into a sink

A sink takes octets, all that come or up to a capacity.  Text that does not fit is taken
as far as it does, and the sink reports that it is full.  Listings are printed line by
line and stop at the first line that is not taken whole.
-/

namespace ServingAdmin

/-- The octets taken so far, and how many there may be. -/
structure Sink where
  capacity : Option Nat
  taken : List UInt8
  deriving DecidableEq

namespace Sink

/-- A sink that has taken nothing. -/
def ofCapacity (capacity : Option Nat) : Sink := ⟨capacity, []⟩

/-- Takes octets as far as they fit, and says whether they did. -/
def put (s : Sink) (octets : List UInt8) : Sink × Bool :=
  match s.capacity with
  | none => (⟨none, s.taken ++ octets⟩, true)
  | some n =>
      let room := n - s.taken.length
      (⟨some n, s.taken ++ octets.take room⟩, octets.length ≤ room)

/-- Takes lines one by one until one does not fit. -/
def putLines (s : Sink) : List (List Char) → Sink × Bool
  | [] => (s, true)
  | line :: rest =>
      match s.put (String.ofList (line ++ ['\n'])).toUTF8.toList with
      | (s', true) => s'.putLines rest
      | (s', false) => (s', false)

end Sink

/-- Prints a table, if there is one, and reports why it is not printed whole. -/
def Table.printTo (listing : Except Failure Table) (s : Sink) : Sink × Option Failure :=
  match listing with
  | .error failure => (s, some failure)
  | .ok t =>
      match s.putLines t.lines with
      | (s', true) => (s', none)
      | (s', false) => (s', some (.of .outputFull))

end ServingAdmin
