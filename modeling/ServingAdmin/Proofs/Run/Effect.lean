import ServingAdmin.Proofs.Script.Output
import ServingAdmin.Run

/-!
# Runs and the effects of their scripts

The exit code, the requests and the state after a run are those of the effect of its
script, and the exit code is zero exactly if the script ends with a value.  The output is
what the script prints.
-/

namespace ServingAdmin

open Cluster (Request Server)
open Script (Outcome effect)

variable {σ : Type}
variable {server : Server σ} {isThere : String → Bool}

theorem Script.Outcome.exitCode_eq_zero_iff
    (outcome : Outcome Unit) :
    outcome.exitCode = 0 ↔ outcome = .done () := by
  cases outcome <;> simp [Outcome.exitCode]

namespace Invocation

/-- Once the parameters are there, the script of an invocation is that of its command. -/
theorem effect_script
    {i : Invocation}
    {parameters : Parameters}
    (h : Parameters.resolve isThere i.kubeConfig = .ok parameters)
    (s : σ) :
    effect server (i.script isThere) s = effect server i.command.script s := by
  simp [script, h, Script.effect_bind, Script.Effect.andThen]

/-- An invocation yields what its command yields. -/
theorem yields_script
    {i : Invocation}
    {parameters : Parameters}
    (h : Parameters.resolve isThere i.kubeConfig = .ok parameters)
    {s : σ}
    {text : String}
    (hcommand : Script.Yields server i.command.script s text ()) :
    Script.Yields server (i.script isThere) s text () :=
  .bind_silent (.ofExcept h) (.bind_silent (.reportAll _) hcommand)

/-- Without its parameters an invocation fails at once. -/
theorem effect_script_of_error
    {i : Invocation}
    {failure : Failure}
    (h : Parameters.resolve isThere i.kubeConfig = .error failure)
    (s : σ) :
    effect server (i.script isThere) s = ⟨.failed failure, [], s⟩ := by
  simp [script, h, Script.effect_bind, Script.Effect.andThen]

end Invocation

namespace Run

variable {words : List String}

/-- Words that make up no command leave the state as it is. -/
theorem ofWords_of_stop
    {stop : CommandLine.Stop}
    (h : Invocation.read words = .error stop)
    (s : σ) :
    ofWords isThere server words s = (stopped stop, s) := by
  rw [ofWords, h]

/-- Words that make up a command have the effect of its script. -/
theorem ofWords_of_invocation
    {i : Invocation}
    (h : Invocation.read words = .ok i)
    (s : σ) :
    ofWords isThere server words s =
      (played i (Script.run server (i.script isThere) s).1,
        (Script.run server (i.script isThere) s).2) := by
  rw [ofWords, h]

variable {i : Invocation}

theorem state_ofWords
    (h : Invocation.read words = .ok i)
    (s : σ) :
    (ofWords isThere server words s).2 = (effect server (i.script isThere) s).state := by
  rw [ofWords_of_invocation h]
  rfl

theorem requests_ofWords
    (h : Invocation.read words = .ok i)
    (s : σ) :
    (ofWords isThere server words s).1.requests =
      (effect server (i.script isThere) s).requests := by
  rw [ofWords_of_invocation h]
  rfl

theorem exitCode_ofWords_eq_zero_iff
    (h : Invocation.read words = .ok i)
    (s : σ) :
    (ofWords isThere server words s).1.exitCode = 0 ↔
      (effect server (i.script isThere) s).outcome = .done () := by
  rw [ofWords_of_invocation h]
  exact Outcome.exitCode_eq_zero_iff _

theorem exitCode_ofWords
    (h : Invocation.read words = .ok i)
    (s : σ) :
    (ofWords isThere server words s).1.exitCode =
      (effect server (i.script isThere) s).outcome.exitCode := by
  rw [ofWords_of_invocation h]
  rfl

theorem output_ofWords
    (h : Invocation.read words = .ok i)
    (s : σ) :
    (ofWords isThere server words s).1.output = Script.printed server (i.script isThere) s := by
  rw [ofWords_of_invocation h]
  rfl

end Run
end ServingAdmin
