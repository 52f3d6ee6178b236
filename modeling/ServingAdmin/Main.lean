import ServingAdmin.Cluster.Wire
import ServingAdmin.Run

/-!
# The command line tool

Reads the command line, plays the script of the command, and exits with the code of its
outcome.  The log goes to the standard error.  Requests are written, a line each, to the
file that the environment names under `KN_ADMIN_REQUESTS`, and the responses are read,
a line each, from the one that it names under `KN_ADMIN_RESPONSES`; named pipes lead to
whatever connects the tool with the cluster.
-/

namespace ServingAdmin
namespace AdminTool

open Cluster (Request Response)

/-- Where requests are written to and responses read from. -/
structure Connection where
  requests : IO.FS.Handle
  responses : IO.FS.Handle

/-- The connection that the environment names. -/
def Connection.ofEnvironment : IO (Option Connection) := do
  match ← IO.getEnv "KN_ADMIN_REQUESTS", ← IO.getEnv "KN_ADMIN_RESPONSES" with
  | some requests, some responses =>
      return some ⟨← IO.FS.Handle.mk requests .append, ← IO.FS.Handle.mk responses .read⟩
  | _, _ => return none

/-- The response where there is none that can be read. -/
def unavailable (text : String) : Response := .raw 503 text

/-- Sends a request and waits for the response. -/
def Connection.exchange (connection : Option Connection) (request : Request) : IO Response := do
  match connection with
  | none => return unavailable "no connection"
  | some c =>
      c.requests.putStrLn (Cluster.Wire.requestLine request)
      c.requests.flush
      let line ← c.responses.getLine
      return (Cluster.Wire.response? line).getD (unavailable line)

/-- Whether a file can be opened. -/
def canOpen (path : String) : IO Bool := do
  try
    let _ ← IO.FS.Handle.mk path .read
    return true
  catch _ => return false

/-- Shows events on the standard error. -/
def showEvents (i : Invocation) (events : List Event) : IO Unit :=
  (i.shown events).forM fun line => do (← IO.getStderr).putStrLn line

/-- Plays a script step by step. -/
def play {α : Type} (connection : Option Connection) (i : Invocation) :
    Script α → IO (Script.Outcome α)
  | .done value => return .done value
  | .fail failure => return .failed failure
  | .abort => return .aborted
  | .report event next => do
      showEvents i [event]
      play connection i next
  | .print text next => do
      IO.print text
      play connection i next
  | .send request next => do
      play connection i (next (← Connection.exchange connection request))

/-- Runs the tool. -/
def runWords (words : List String) : IO UInt32 := do
  match Invocation.read words with
  | .error stop =>
      IO.print (Run.stopped stop).output
      return stop.exitCode.toUInt32
  | .ok i =>
      let isThere ← canOpen (i.kubeConfig.getD "")
      let connection ← Connection.ofEnvironment
      let outcome ← play connection i (i.script fun _ => isThere)
      showEvents i (outcome.events i.topic)
      return outcome.exitCode.toUInt32

end AdminTool
end ServingAdmin

/-- Runs the tool on its arguments. -/
def main (words : List String) : IO UInt32 := ServingAdmin.AdminTool.runWords words
