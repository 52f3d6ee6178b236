import ServingAdmin.Autoscaling.Update

/-!
# Editing sessions

A session works on the data of a config map.  It collects an update, checks it, and
makes the changes of the last check that succeeded; the data can also be edited by hand.
-/

namespace ServingAdmin
namespace Autoscaling

/-- The data, the update that is being collected, and the changes that were accepted last. -/
structure Session where
  data : KeyMap String
  update : Update
  accepted : Option Changes
  deriving DecidableEq

/-- A step of a session. -/
inductive Step
  | set (field raw : String)
  | enable
  | disable
  | reset
  | check
  | apply
  | put (key value : String)
  | delete (key : String)
  deriving DecidableEq

namespace Session

/-- The session that begins with given data. -/
def start (data : KeyMap String) : Session := ⟨data, .empty, none⟩

/-- The session after a step. -/
def step (s : Session) : Step → Session
  | .set field raw => { s with update := s.update.set field raw }
  | .enable => { s with update := s.update.enabling }
  | .disable => { s with update := s.update.disabling }
  | .reset => { s with update := .empty }
  | .check =>
      match s.update.check with
      | .ok changes => { s with accepted := some changes }
      | .error _ => s
  | .apply =>
      match s.accepted with
      | some changes => { s with data := changes.applyTo s.data }
      | none => s
  | .put key value => { s with data := s.data.insert key value }
  | .delete key => { s with data := s.data.erase key }

/-- The session after several steps. -/
def steps (s : Session) (l : List Step) : Session := l.foldl step s

end Session

end Autoscaling
end ServingAdmin
