import ServingAdmin.Proofs.Script.Effect

/-!
# Scripts that cannot leave a half-made change

A script `Reads` if no state of the server changes while it is played, and it is
`AllOrNothing` if a state can only change when the script ends with a value.  Reading may
come before a script of the second kind, and what is only printed or reported may come
behind it.
-/

namespace ServingAdmin
namespace Script

open Cluster (Call Request Response Server)

variable {σ α β : Type}
variable {server : Server σ}

/-- Playing the script leaves every state as it is. -/
def Reads
    (server : Server σ)
    (x : Script α) :
    Prop :=
  ∀ s, (effect server x s).state = s

/-- Playing the script leaves a state as it is unless it ends with a value. -/
def AllOrNothing
    (server : Server σ)
    (x : Script α) :
    Prop :=
  ∀ s, (∀ a, (effect server x s).outcome ≠ .done a) → (effect server x s).state = s

/-- What holds of a state holds behind an effect that leaves it and whatever goes on from there. -/
theorem Effect.state_andThen
    {P : σ → Prop}
    {e : Effect σ α}
    {next : α → σ → Effect σ β}
    {s : σ}
    (hstate : e.state = s)
    (hs : P s)
    (hnext : ∀ a, e.outcome = .done a → P (next a s).state) :
    P (e.andThen next).state := by
  obtain ⟨outcome, requests, state⟩ := e
  subst hstate
  cases outcome with
  | done a => exact hnext a rfl
  | failed failure => exact hs
  | aborted => exact hs

theorem Reads.done
    (a : α) :
    Reads server (done a) :=
  fun _ => rfl

theorem Reads.fail
    (failure : Failure) :
    Reads server (fail failure : Script α) :=
  fun _ => rfl

theorem Reads.abort :
    Reads server (abort : Script α) :=
  fun _ => rfl

theorem Reads.report
    {event : Event}
    {x : Script α}
    (h : Reads server x) :
    Reads server (report event x) :=
  h

theorem Reads.print
    {text : String}
    {x : Script α}
    (h : Reads server x) :
    Reads server (print text x) :=
  h

theorem Reads.bind
    {x : Script α}
    {f : α → Script β}
    (hx : Reads server x)
    (hf : ∀ a, Reads server (f a)) :
    Reads server (x >>= f) := by
  intro s
  rw [effect_bind]
  exact Effect.state_andThen (P := (· = s)) (hx s) rfl fun a _ => hf a s

/-- What holds of a state holds behind a script that begins by reading. -/
theorem Reads.state_bind
    {P : σ → Prop}
    {x : Script α}
    {f : α → Script β}
    {s : σ}
    (hx : Reads server x)
    (hs : P s)
    (hf : ∀ a, (effect server x s).outcome = .done a → P (effect server (f a) s).state) :
    P (effect server (x >>= f) s).state := by
  rw [effect_bind]
  exact Effect.state_andThen (hx s) hs hf

/-- A script that ends by reading leaves the state that its first part leaves. -/
theorem state_bind_of_reads
    (x : Script α)
    {f : α → Script β}
    (hf : ∀ a, Reads server (f a))
    (s : σ) :
    (effect server (x >>= f) s).state = (effect server x s).state := by
  rw [effect_bind]
  exact Effect.state_andThen (P := (· = (effect server x s).state)) rfl rfl fun a _ => hf a _

theorem Reads.context
    {problem : Problem}
    {x : Script α}
    (h : Reads server x) :
    Reads server (x.context problem) := by
  intro s
  rw [effect_context]
  exact h s

theorem Reads.ofExcept
    (r : Except Failure α) :
    Reads server (ofExcept r) := by
  cases r with
  | ok a => exact Reads.done a
  | error failure => exact Reads.fail failure

theorem Reads.ofOption
    (o : Option α) :
    Reads server (ofOption o) := by
  cases o with
  | some a => exact Reads.done a
  | none => exact Reads.abort

theorem Reads.reportAll
    (events : List Event) :
    Reads server (reportAll events) := by
  intro s
  simp

theorem Reads.printListing
    (listing : Except Failure Table) :
    Reads server (printListing listing) :=
  Reads.bind (Reads.ofExcept listing) fun _ => Reads.print (Reads.done ())

theorem Reads.allOrNothing
    {x : Script α}
    (h : Reads server x) :
    AllOrNothing server x :=
  fun s _ => h s

/-- What only reads may come first. -/
theorem Reads.bind_allOrNothing
    {x : Script α}
    {f : α → Script β}
    (hx : Reads server x)
    (hf : ∀ a s, (effect server x s).outcome = .done a → AllOrNothing server (f a)) :
    AllOrNothing server (x >>= f) := by
  intro s hs
  rw [effect_bind] at hs ⊢
  refine Effect.state_andThen (P := (· = s)) (hx s) rfl fun a ha => hf a s ha s fun b hb => ?_
  refine hs b ?_
  simp [Effect.andThen, ha, hx s, hb]

theorem AllOrNothing.report
    {event : Event}
    {x : Script α}
    (h : AllOrNothing server x) :
    AllOrNothing server (report event x) :=
  h

theorem AllOrNothing.context
    {problem : Problem}
    {x : Script α}
    (h : AllOrNothing server x) :
    AllOrNothing server (x.context problem) := by
  intro s hs
  rw [effect_context] at hs ⊢
  exact h s fun a ha => hs a ((Outcome.inContext_eq_done problem _ a).mpr ha)

/-- What surely ends with a value, and makes no request, may come last. -/
theorem AllOrNothing.bind_of_done
    {x : Script α}
    {f : α → Script β}
    (hx : AllOrNothing server x)
    (hf : ∀ a s, ∃ b, (effect server (f a) s).outcome = .done b) :
    AllOrNothing server (x >>= f) := by
  intro s hs
  rw [effect_bind] at hs ⊢
  cases hout : (effect server x s).outcome with
  | done a =>
      obtain ⟨b, hb⟩ := hf a (effect server x s).state
      exact absurd (by simp [Effect.andThen, hout, hb]) (hs b)
  | failed failure =>
      simpa [Effect.andThen, hout] using hx s (by simp [hout])
  | aborted =>
      simpa [Effect.andThen, hout] using hx s (by simp [hout])

/-- An exchange makes its request and takes what is expected out of the response. -/
theorem effect_call
    {c : Call α}
    {r : Request}
    (hr : c.request? = some r)
    (s : σ) :
    effect server (call c) s =
      ⟨match c.expected.take (server.answer s r).1 with
        | .ok a => .done a
        | .error fault => .failed (.of (.failedExchange fault)),
        [r], (server.answer s r).2⟩ := by
  rw [call, hr]
  simp only [effect_send]
  cases c.expected.take (server.answer s r).1 <;> rfl

/-- An exchange whose target cannot be written fails before anything is requested. -/
theorem effect_call_of_none
    {c : Call α}
    (hr : c.request? = none)
    (s : σ) :
    effect server (call c) s = ⟨.failed (.of (.failedExchange .invalidTarget)), [], s⟩ := by
  rw [call, hr]
  rfl

end Script
end ServingAdmin
