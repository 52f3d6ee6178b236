import ServingAdmin.Invocation

/-!
# Runs of the tool

A run reads its command line and plays the script of the command against a server.  It
shows a log and an output, and ends with an exit code: zero after a success, one after
a failure, and 101 where a script ended without a word.
-/

namespace ServingAdmin

open Cluster (Request Server)
open CommandLine (Stop)

/-- What a run came to. -/
inductive Run
  /-- The command line makes up no command. -/
  | stopped (stop : Stop)
  /-- A command was played. -/
  | played (invocation : Invocation) (transcript : Script.Transcript Unit)
  deriving DecidableEq

/-- The exit code for a command line that makes up no command. -/
def CommandLine.Stop.exitCode : Stop → Nat
  | help | version _ => 0
  | _ => 1

namespace Script.Outcome

/-- The exit code for an outcome. -/
def exitCode {α : Type} : Outcome α → Nat
  | done _ => 0
  | failed _ => 1
  | aborted => 101

/-- The events that tell of an outcome. -/
def events {α : Type} (topic : String) : Outcome α → List Event
  | failed failure => failure.events topic
  | _ => []

end Script.Outcome

namespace Invocation

/-- The events of an invocation that are shown, one a line. -/
def shown (i : Invocation) (events : List Event) : List String :=
  (events.filter (Event.isShown i.verbosity)).map Event.line

end Invocation

namespace Run

/-- Runs the tool on the words of a command line. -/
def ofWords {σ : Type} (isThere : String → Bool) (server : Server σ) (words : List String)
    (state : σ) : Run × σ :=
  match Invocation.read words with
  | .error stop => (stopped stop, state)
  | .ok i =>
      let (t, state') := (i.script isThere).run server state
      (played i t, state')

/-- The exit code of a run. -/
def exitCode : Run → Nat
  | stopped stop => stop.exitCode
  | played _ t => t.outcome.exitCode

/-- What a run prints. -/
def output : Run → String
  | stopped (.version path) => AdminTool.versionText path
  | stopped _ => ""
  | played _ t => t.output

/-- What a run logs. -/
def log : Run → List String
  | stopped _ => []
  | played i t => i.shown (t.events ++ t.outcome.events i.topic)

/-- What a run requests. -/
def requests : Run → List Request
  | stopped _ => []
  | played _ t => t.requests

/-- Runs the tool on several command lines, one after the other. -/
def sequence {σ : Type} (isThere : String → Bool) (server : Server σ) :
    List (List String) → σ → List Run × σ
  | [], state => ([], state)
  | words :: rest, state =>
      let (run, state₁) := ofWords isThere server words state
      let (runs, state₂) := sequence isThere server rest state₁
      (run :: runs, state₂)

end Run
end ServingAdmin
