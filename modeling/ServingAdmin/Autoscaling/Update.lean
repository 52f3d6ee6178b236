import ServingAdmin.Autoscaling.Field
import ServingAdmin.KeyMap

/-!
# Updates of the autoscaling settings

An `Update` is what one command asks for: two flags that switch scale-to-zero on and
off, and raw values for named fields in the order in which they were given.  `Update.check`
looks at all of it before anything is written and gives the `Changes` to make, in which
every value has the form in which it is stored.

Changes go over the data of a config map (`Changes.applyTo`).  Keys that hold the
wanted value already are left alone, and `Changes.pending` lists the others.
-/

namespace ServingAdmin
namespace Autoscaling

/-- What one command asks for. -/
structure Update where
  enable : Bool
  disable : Bool
  values : List (String × String)
  deriving DecidableEq

/-- Values that have been accepted, by field. -/
structure Changes where
  values : KeyMap String
  deriving DecidableEq

namespace Update

/-- The update that asks for nothing. -/
def empty : Update := ⟨false, false, []⟩

/-- Asks for a value of a field, behind those asked for before. -/
def set (u : Update) (field raw : String) : Update :=
  { u with values := u.values ++ [(field, raw)] }

/-- Asks for scale-to-zero to be switched on. -/
def enabling (u : Update) : Update := { u with enable := true }

/-- Asks for scale-to-zero to be switched off. -/
def disabling (u : Update) : Update := { u with disable := true }

/-- Whether nothing is asked for. -/
def isEmpty (u : Update) : Bool := !u.enable && !u.disable && u.values.isEmpty

/-- The change that the flags ask for. -/
def flagChanges (u : Update) : KeyMap String :=
  let on := if u.enable then KeyMap.empty.insert scaleToZeroKey (booleanText true) else .empty
  if u.disable then on.insert scaleToZeroKey (booleanText false) else on

/-- Accepts values one by one, a later value of a field over an earlier one. -/
def acceptAll (m : KeyMap String) : List (String × String) → Except Failure (KeyMap String)
  | [] => .ok m
  | (field, raw) :: rest =>
      match accept field raw with
      | .ok stored => acceptAll (m.insert field stored) rest
      | .error failure => .error failure

/-- Checks an update as a whole. -/
def check (u : Update) : Except Failure Changes :=
  if u.isEmpty then .error (.of (.missingFlags "autoscaling update"))
  else if u.enable && u.disable then
    .error (.of (.conflictingFlags "scale-to-zero" "no-scale-to-zero"))
  else (acceptAll u.flagChanges u.values).map Changes.mk

/-- The values up to the first that is not accepted. -/
def acceptedUntilFault : List (String × String) → List (String × String)
  | [] => []
  | (field, raw) :: rest =>
      match accept field raw with
      | .ok _ => (field, raw) :: acceptedUntilFault rest
      | .error _ => [(field, raw)]

/-- The values that a check looks at. -/
def examined (u : Update) : List (String × String) :=
  if u.isEmpty || (u.enable && u.disable) then [] else acceptedUntilFault u.values

end Update

namespace Changes

/-- The changes whose keys do not hold the wanted value, by increasing key. -/
def pending (c : Changes) (data : KeyMap String) : List (String × String) :=
  c.values.entries.filter fun e => data.get? e.1 ≠ some e.2

/-- The data with the changes made. -/
def applyTo (c : Changes) (data : KeyMap String) : KeyMap String :=
  (c.pending data).foldl (fun m e => m.insert e.1 e.2) data

/-- Whether any key does not hold the wanted value. -/
def alters (c : Changes) (data : KeyMap String) : Bool := !(c.pending data).isEmpty

end Changes

end Autoscaling
end ServingAdmin
