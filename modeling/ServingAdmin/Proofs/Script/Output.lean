import ServingAdmin.Proofs.Script.Safety

/-!
# What scripts print

What is printed is computed step by step along a script, beside its effect (`printed_bind`).

A script `Yields` a value from a state if it ends with that value, prints a given text and leaves
the state as it is.  Whatever comes behind it is played from the same state.
-/

namespace ServingAdmin
namespace Script

open Cluster (Call Request Response Server)

variable {σ α β : Type}

section Printed

variable (server : Server σ)

/-- The text that is printed when a script is played. -/
def printed
    (x : Script α)
    (s : σ) :
    String :=
  (run server x s).1.output

@[simp] theorem printed_done
    (a : α)
    (s : σ) :
    printed server (done a) s = "" := by
  rfl

@[simp] theorem printed_fail
    (failure : Failure)
    (s : σ) :
    printed server (fail failure : Script α) s = "" := by
  rfl

@[simp] theorem printed_abort
    (s : σ) :
    printed server (abort : Script α) s = "" := by
  rfl

@[simp] theorem printed_report
    (event : Event)
    (next : Script α)
    (s : σ) :
    printed server (report event next) s = printed server next s := by
  rfl

@[simp] theorem printed_print
    (text : String)
    (next : Script α)
    (s : σ) :
    printed server (print text next) s = text ++ printed server next s := by
  rfl

@[simp] theorem printed_send
    (r : Request)
    (next : Response → Script α)
    (s : σ) :
    printed server (send r next) s =
      printed server (next (server.answer s r).1) (server.answer s r).2 := by
  rfl

/-- What is printed behind an outcome. -/
def Outcome.printedBehind
    (next : α → String) :
    Outcome α → String
  | .done a => next a
  | .failed _ => ""
  | .aborted => ""

/-- Two scripts in a row print in a row. -/
theorem printed_bind
    (x : Script α)
    (f : α → Script β)
    (s : σ) :
    printed server (x >>= f) s =
      printed server x s ++
        (effect server x s).outcome.printedBehind fun a =>
          printed server (f a) (effect server x s).state := by
  induction x generalizing s with
  | done a => simp [Outcome.printedBehind]
  | fail failure => rfl
  | abort => rfl
  | report event next ih => exact ih s
  | print text next ih =>
      rw [print_bind, printed_print, printed_print, ih, String.append_assoc]
      rfl
  | send r next ih => exact ih _ _

@[simp] theorem printed_context
    (problem : Problem)
    (x : Script α)
    (s : σ) :
    printed server (x.context problem) s = printed server x s := by
  induction x generalizing s with
  | done a => rfl
  | fail failure => rfl
  | abort => rfl
  | report event next ih => exact ih s
  | print text next ih => exact congrArg (text ++ ·) (ih s)
  | send r next ih => exact ih _ _

end Printed

variable {server : Server σ} {s : σ}

/-- Playing the script from a state ends with a value, prints a text and leaves the state. -/
structure Yields
    (server : Server σ)
    (x : Script α)
    (s : σ)
    (text : String)
    (a : α) :
    Prop where
  outcome : (effect server x s).outcome = .done a
  state : (effect server x s).state = s
  printed : printed server x s = text

namespace Yields

variable {x : Script α} {text : String} {a : α}

theorem done
    (a : α) :
    Yields server (done a) s "" a :=
  ⟨rfl, rfl, rfl⟩

theorem report
    {event : Event}
    (h : Yields server x s text a) :
    Yields server (report event x) s text a :=
  ⟨h.outcome, h.state, h.printed⟩

theorem print
    (text : String) :
    Yields server (print text (Script.done ())) s text () :=
  ⟨rfl, rfl, String.append_empty⟩

theorem ofExcept
    {r : Except Failure α}
    (h : r = .ok a) :
    Yields server (ofExcept r) s "" a := by
  subst h
  exact done a

theorem ofOption
    {o : Option α}
    (h : o = some a) :
    Yields server (ofOption o) s "" a := by
  subst h
  exact done a

theorem reportAll
    (events : List Event) :
    Yields server (reportAll events) s "" () := by
  induction events with
  | nil => exact done ()
  | cons event events ih => exact ih.report

theorem context
    {problem : Problem}
    (h : Yields server x s text a) :
    Yields server (x.context problem) s text a := by
  refine ⟨?_, ?_, ?_⟩
  · rw [effect_context]
    exact (Outcome.inContext_eq_done problem _ a).mpr h.outcome
  · rw [effect_context]
    exact h.state
  · rw [printed_context]
    exact h.printed

/-- Whatever comes behind ends as it does from the same state. -/
theorem outcome_bind
    (h : Yields server x s text a)
    (f : α → Script β) :
    (effect server (x >>= f) s).outcome = (effect server (f a) s).outcome := by
  rw [effect_bind, Effect.andThen, h.outcome, h.state]

theorem bind
    {f : α → Script β}
    {text' : String}
    {b : β}
    (h : Yields server x s text a)
    (hf : Yields server (f a) s text' b) :
    Yields server (x >>= f) s (text ++ text') b := by
  refine ⟨(h.outcome_bind f).trans hf.outcome, ?_, ?_⟩
  · rw [effect_bind, Effect.andThen, h.outcome, h.state]
    exact hf.state
  · rw [printed_bind, h.printed, h.outcome, h.state]
    exact congrArg (text ++ ·) hf.printed

/-- A script may begin with one that prints nothing. -/
theorem bind_silent
    {f : α → Script β}
    {b : β}
    (h : Yields server x s "" a)
    (hf : Yields server (f a) s text b) :
    Yields server (x >>= f) s text b := by
  rw [← String.empty_append (s := text)]
  exact h.bind hf

/-- An exchange that leaves the state yields what is taken out of the response. -/
theorem call
    {c : Call α}
    {r : Request}
    (hr : c.request? = some r)
    (htake : c.expected.take (server.answer s r).1 = .ok a)
    (hstate : (server.answer s r).2 = s) :
    Yields server (call c) s "" a := by
  refine ⟨?_, ?_, ?_⟩
  · rw [effect_call hr, htake]
  · rw [effect_call hr]
    exact hstate
  · rw [Script.call, hr]
    simp only [printed_send, htake]
    rfl

end Yields
end Script
end ServingAdmin
