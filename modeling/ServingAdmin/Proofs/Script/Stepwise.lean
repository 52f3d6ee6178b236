import ServingAdmin.Proofs.Cluster.Interface
import ServingAdmin.Proofs.Script.Effect

/-!
# Scripts request by request

A script that is settled has ended or is about to make a request.  Settling leaves out
what is only reported or printed, and so keeps the effect of the script
(`effect_settle`).  A script that `Asks` makes one request, takes what it expects out of
the response and goes on with it, or else fails.
-/

namespace ServingAdmin
namespace Script

open Cluster (Call Expectation Request Response Server)

variable {σ α β γ : Type}

/-- A script from its next request on, or its end. -/
def settle : Script α → Script α
  | report _ next => settle next
  | print _ next => settle next
  | x => x

/-- What stands in front of the next request does not matter to what comes behind it. -/
theorem settle_bind
    (x : Script α)
    (f : α → Script β) :
    settle (x >>= f) = settle (settle x >>= f) := by
  induction x with
  | done a => rfl
  | fail failure => rfl
  | abort => rfl
  | report event next ih => exact ih
  | print text next ih => exact ih
  | send r next ih => rfl

theorem settle_context
    (problem : Problem)
    (x : Script α) :
    settle (x.context problem) = (settle x).context problem := by
  induction x with
  | done a => rfl
  | fail failure => rfl
  | abort => rfl
  | report event next ih => exact ih
  | print text next ih => exact ih
  | send r next ih => rfl

/-- Reports alone do not hold up what comes behind them. -/
theorem settle_reportAll_bind
    (events : List Event)
    (f : Unit → Script α) :
    settle (reportAll events >>= f) = settle (f ()) := by
  induction events with
  | nil => rfl
  | cons event events ih => exact ih

/-- To settle a script does not change its effect. -/
@[simp] theorem effect_settle
    (server : Server σ)
    (x : Script α)
    (s : σ) :
    effect server (settle x) s = effect server x s := by
  induction x with
  | done a => rfl
  | fail failure => rfl
  | abort => rfl
  | report event next ih => exact ih
  | print text next ih => exact ih
  | send r next ih => rfl

/-- The script makes a request and goes on with what it expects of the response, or else fails. -/
def Asks
    (x : Script β)
    (r : Request)
    (e : Expectation α)
    (f : α → Script β) :
    Prop :=
  ∃ next, settle x = send r next ∧
    (∀ response a, e.take response = .ok a → settle (next response) = settle (f a)) ∧
    (∀ response fault, e.take response = .error fault →
      ∃ failure, settle (next response) = fail failure)

/-- An exchange asks for what it expects. -/
theorem Asks.call
    {c : Call α}
    {r : Request}
    (hr : c.request? = some r) :
    Asks (call c) r c.expected done := by
  rw [Script.call, hr]
  refine ⟨_, rfl, ?_, ?_⟩
  · intro response a ha
    rw [ha]
    rfl
  · intro response fault hfault
    rw [hfault]
    exact ⟨_, rfl⟩

theorem Asks.report
    {x : Script β}
    {r : Request}
    {e : Expectation α}
    {f : α → Script β}
    (h : Asks x r e f)
    (event : Event) :
    Asks (report event x) r e f :=
  h

/-- What asks first goes on asking when more comes behind it. -/
theorem Asks.bind
    {x : Script β}
    {r : Request}
    {e : Expectation α}
    {f : α → Script β}
    (h : Asks x r e f)
    (g : β → Script γ) :
    Asks (x >>= g) r e fun a => f a >>= g := by
  obtain ⟨next, hx, hok, herror⟩ := h
  refine ⟨fun response => next response >>= g, ?_, ?_, ?_⟩
  · rw [settle_bind, hx]
    rfl
  · intro response a ha
    rw [settle_bind, hok response a ha, ← settle_bind]
  · intro response fault hfault
    obtain ⟨failure, hfail⟩ := herror response fault hfault
    refine ⟨failure, ?_⟩
    rw [settle_bind, hfail]
    rfl

theorem Asks.context
    {x : Script β}
    {r : Request}
    {e : Expectation α}
    {f : α → Script β}
    (h : Asks x r e f)
    (problem : Problem) :
    Asks (x.context problem) r e fun a => (f a).context problem := by
  obtain ⟨next, hx, hok, herror⟩ := h
  refine ⟨fun response => (next response).context problem, ?_, ?_, ?_⟩
  · rw [settle_context, hx]
    rfl
  · intro response a ha
    rw [settle_context, hok response a ha, ← settle_context]
  · intro response fault hfault
    obtain ⟨failure, hfail⟩ := herror response fault hfault
    refine ⟨.because problem failure, ?_⟩
    rw [settle_context, hfail]
    rfl

/-- What a script goes on with matters from its next request on. -/
theorem Asks.congr
    {x : Script β}
    {r : Request}
    {e : Expectation α}
    {f g : α → Script β}
    (h : Asks x r e f)
    (hfg : ∀ a, settle (f a) = settle (g a)) :
    Asks x r e g := by
  obtain ⟨next, hx, hok, herror⟩ := h
  refine ⟨next, hx, fun response a ha => ?_, herror⟩
  rw [hok response a ha, hfg a]

/-- A script that asks has not ended. -/
theorem Asks.settle_ne_done
    {x : Script β}
    {r : Request}
    {e : Expectation α}
    {f : α → Script β}
    (h : Asks x r e f)
    (b : β) :
    settle x ≠ done b := by
  obtain ⟨next, hx, _⟩ := h
  simp [hx]

/-- How a script that asks goes on behind its request. -/
theorem Asks.answered
    {x : Script β}
    {r r' : Request}
    {e : Expectation α}
    {f : α → Script β}
    {next : Response → Script β}
    (h : Asks x r e f)
    (hx : settle x = send r' next) :
    r' = r ∧ ∀ response,
      (∃ a, e.take response = .ok a ∧ settle (next response) = settle (f a)) ∨
        (¬ e.IsMet response ∧ ∃ failure, settle (next response) = fail failure) := by
  obtain ⟨next', hx', hok, herror⟩ := h
  cases hx.symm.trans hx'
  refine ⟨rfl, fun response => ?_⟩
  cases htake : e.take response with
  | ok a => exact Or.inl ⟨a, rfl, hok response a htake⟩
  | error fault =>
      refine Or.inr ⟨?_, herror response fault htake⟩
      rintro ⟨a, ha⟩
      cases htake.symm.trans ha

end Script
end ServingAdmin
