import ServingAdmin.Cluster.Store
import ServingAdmin.Event
import ServingAdmin.Table.Basic

/-!
# Scripts

A command is a script: a finite tree of reports, printed texts and requests, in which
what comes after a request depends on the response.  A script ends with a value, with a
failure, or without a word where it meets an object that it cannot handle.

Scripts do nothing by themselves.  `Script.run` plays one against a server and keeps what
it reported, printed and requested.
-/

namespace ServingAdmin

open Cluster (Call Request Response Server)

/-- A command with a value at its end. -/
inductive Script (α : Type)
  | done (value : α)
  | fail (failure : Failure)
  | abort
  | report (event : Event) (next : Script α)
  | print (text : String) (next : Script α)
  | send (request : Request) (next : Response → Script α)

namespace Script

variable {α β γ : Type}

/-- Goes on with the value at the end of a script. -/
def bind (f : α → Script β) : Script α → Script β
  | done value => f value
  | fail failure => fail failure
  | abort => abort
  | report event next => report event (bind f next)
  | print text next => print text (bind f next)
  | send request next => send request fun response => bind f (next response)

instance : Monad Script where
  pure := done
  bind s f := bind f s

@[simp] theorem pure_def (value : α) : (pure value : Script α) = done value := rfl

@[simp] theorem done_bind (value : α) (f : α → Script β) : done value >>= f = f value := rfl

@[simp] theorem fail_bind (failure : Failure) (f : α → Script β) :
    fail failure >>= f = fail failure := rfl

@[simp] theorem abort_bind (f : α → Script β) : abort >>= f = abort := rfl

@[simp] theorem report_bind (event : Event) (next : Script α) (f : α → Script β) :
    report event next >>= f = report event (next >>= f) := rfl

@[simp] theorem print_bind (text : String) (next : Script α) (f : α → Script β) :
    print text next >>= f = print text (next >>= f) := rfl

@[simp] theorem send_bind (request : Request) (next : Response → Script α) (f : α → Script β) :
    send request next >>= f = send request fun response => next response >>= f := rfl

theorem bind_assoc (s : Script α) (f : α → Script β) (g : β → Script γ) :
    s >>= f >>= g = s >>= fun value => f value >>= g := by
  induction s with
  | done | fail | abort => rfl
  | report event next ih => simp [ih]
  | print text next ih => simp [ih]
  | send request next ih => simp [ih]

/-- Reports a failure of a script as the cause of a problem. -/
def context (problem : Problem) : Script α → Script α
  | done value => done value
  | fail failure => fail (.because problem failure)
  | abort => abort
  | report event next => report event (context problem next)
  | print text next => print text (context problem next)
  | send request next => send request fun response => context problem (next response)

/-- The script that ends at once with a result. -/
def ofExcept : Except Failure α → Script α
  | .ok value => done value
  | .error failure => fail failure

/-- The script that goes on only with a value. -/
def ofOption : Option α → Script α
  | some value => done value
  | none => abort

/-- Reports events one after the other. -/
def reportAll (events : List Event) : Script Unit := events.foldr report (done ())

/-- Makes an exchange with the cluster. -/
def call (c : Call α) : Script α :=
  match c.request? with
  | none => fail (.of (.failedExchange .invalidTarget))
  | some request =>
      send request fun response =>
        ofExcept ((c.expected.take response).mapError fun fault => .of (.failedExchange fault))

/-- Prints a table, if there is one. -/
def printListing (listing : Except Failure Table) : Script Unit := do
  print (← ofExcept listing).text (done ())

/-- How a script ended. -/
inductive Outcome (α : Type)
  | done (value : α)
  | failed (failure : Failure)
  | aborted
  deriving DecidableEq

/-- What a script did. -/
structure Transcript (α : Type) where
  events : List Event
  output : String
  requests : List Request
  outcome : Outcome α
  deriving DecidableEq

/-- Plays a script against a server in a given state. -/
def run {σ : Type} (server : Server σ) : Script α → σ → Transcript α × σ
  | done value, state => (⟨[], "", [], .done value⟩, state)
  | fail failure, state => (⟨[], "", [], .failed failure⟩, state)
  | abort, state => (⟨[], "", [], .aborted⟩, state)
  | report event next, state =>
      let (t, state') := run server next state
      ({ t with events := event :: t.events }, state')
  | print text next, state =>
      let (t, state') := run server next state
      ({ t with output := text ++ t.output }, state')
  | send request next, state =>
      let (response, state₁) := server.answer state request
      let (t, state₂) := run server (next response) state₁
      ({ t with requests := request :: t.requests }, state₂)

end Script
end ServingAdmin
