import ServingAdmin.Script

/-!
# Effects of scripts

What a script does to a cluster does not depend on what it reports or prints.  Its
`effect` keeps the outcome, the requests and the state that is left, and is computed step
by step along the script (`effect_bind`).

Two kinds of scripts get names of their own.  A script that `Reads` leaves every state as
it is.  A script that is `AllOrNothing` leaves the state as it is unless it ends with a
value.
-/

namespace ServingAdmin
namespace Script

open Cluster (Call Request Response Server)

variable {σ α β : Type}
variable (server : Server σ)

/-- What matters to a cluster of a script that is played. -/
structure Effect (σ α : Type) where
  outcome : Outcome α
  requests : List Request
  state : σ

/-- The effect of playing a script. -/
def effect
    (x : Script α)
    (s : σ) :
    Effect σ α :=
  ⟨(run server x s).1.outcome, (run server x s).1.requests, (run server x s).2⟩

/-- The effect of making a request first. -/
def Effect.after
    (r : Request)
    (e : Effect σ α) :
    Effect σ α :=
  { e with requests := r :: e.requests }

/-- The effect of going on from an effect, if that ended with a value. -/
def Effect.andThen
    (e : Effect σ α)
    (next : α → σ → Effect σ β) :
    Effect σ β :=
  match e.outcome with
  | .done a =>
      { next a e.state with requests := e.requests ++ (next a e.state).requests }
  | .failed failure => ⟨.failed failure, e.requests, e.state⟩
  | .aborted => ⟨.aborted, e.requests, e.state⟩

@[simp] theorem effect_done
    (a : α)
    (s : σ) :
    effect server (done a) s = ⟨.done a, [], s⟩ := by
  rfl

@[simp] theorem effect_fail
    (failure : Failure)
    (s : σ) :
    effect server (fail failure : Script α) s = ⟨.failed failure, [], s⟩ := by
  rfl

@[simp] theorem effect_abort
    (s : σ) :
    effect server (abort : Script α) s = ⟨.aborted, [], s⟩ := by
  rfl

@[simp] theorem effect_report
    (event : Event)
    (next : Script α)
    (s : σ) :
    effect server (report event next) s = effect server next s := by
  rfl

@[simp] theorem effect_print
    (text : String)
    (next : Script α)
    (s : σ) :
    effect server (print text next) s = effect server next s := by
  rfl

@[simp] theorem effect_send
    (r : Request)
    (next : Response → Script α)
    (s : σ) :
    effect server (send r next) s =
      (effect server (next (server.answer s r).1) (server.answer s r).2).after r := by
  rfl

theorem Effect.after_andThen
    (r : Request)
    (e : Effect σ α)
    (next : α → σ → Effect σ β) :
    (e.after r).andThen next = (e.andThen next).after r := by
  obtain ⟨outcome, requests, state⟩ := e
  cases outcome <;> rfl

/-- Two scripts in a row have their effects in a row. -/
theorem effect_bind
    (x : Script α)
    (f : α → Script β)
    (s : σ) :
    effect server (x >>= f) s =
      (effect server x s).andThen fun a => effect server (f a) := by
  induction x generalizing s with
  | done a => simp [Effect.andThen]
  | fail failure => simp [Effect.andThen]
  | abort => simp [Effect.andThen]
  | report event next ih => simpa using ih s
  | print text next ih => simpa using ih s
  | send r next ih =>
      rw [send_bind, effect_send, effect_send, Effect.after_andThen]
      exact congrArg (Effect.after r) (ih _ _)

/-- What is printed behind a script has no effect. -/
theorem effect_bind_print
    (x : Script Unit)
    (text : String)
    (s : σ) :
    effect server (x >>= fun _ => print text (done ())) s = effect server x s := by
  rw [effect_bind]
  obtain ⟨outcome, requests, state⟩ := effect server x s
  cases outcome with
  | done a => simp [Effect.andThen]
  | failed failure => rfl
  | aborted => rfl

@[simp] theorem effect_ofExcept_ok
    (a : α)
    (s : σ) :
    effect server (ofExcept (.ok a)) s = ⟨.done a, [], s⟩ := by
  rfl

@[simp] theorem effect_ofExcept_error
    (failure : Failure)
    (s : σ) :
    effect server (ofExcept (.error failure) : Script α) s = ⟨.failed failure, [], s⟩ := by
  rfl

@[simp] theorem effect_reportAll
    (events : List Event)
    (s : σ) :
    effect server (reportAll events) s = ⟨.done (), [], s⟩ := by
  induction events with
  | nil => rfl
  | cons event events ih => exact ih

/-- An outcome with its failure reported as the cause of a problem. -/
def Outcome.inContext
    (problem : Problem) :
    Outcome α → Outcome α
  | .failed failure => .failed (.because problem failure)
  | outcome => outcome

/-- A context changes how a failure is reported and nothing else. -/
@[simp] theorem effect_context
    (problem : Problem)
    (x : Script α)
    (s : σ) :
    effect server (x.context problem) s =
      { effect server x s with outcome := (effect server x s).outcome.inContext problem } := by
  induction x generalizing s with
  | done a => rfl
  | fail failure => rfl
  | abort => rfl
  | report event next ih => exact ih s
  | print text next ih => exact ih s
  | send r next ih =>
      rw [context, effect_send, effect_send, ih]
      rfl

/-- A context lets exactly the values through. -/
@[simp] theorem Outcome.inContext_eq_done
    (problem : Problem)
    (outcome : Outcome α)
    (a : α) :
    outcome.inContext problem = .done a ↔ outcome = .done a := by
  cases outcome <;> simp [inContext]

end Script
end ServingAdmin
