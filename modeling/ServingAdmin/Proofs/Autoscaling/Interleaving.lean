import ServingAdmin.Invocation
import ServingAdmin.Proofs.Autoscaling.Override
import ServingAdmin.Proofs.Script.Stepwise

/-!
# Updates side by side

Several invocations are under way at one server, and the settings are edited from outside
as well.  A `System` is a state of the server with the scripts of its clients, each from
its next request on.  It makes one move at a time: a client makes its next request and
gets the response, or somebody else edits the settings.

A `Turn` is an edit or an update by itself, and `Accounts` tells which turns the moves of
a system come to.
-/

namespace ServingAdmin
namespace Autoscaling

open Cluster
open Script

variable {σ : Type}

/-- The data of the settings, if there are settings. -/
def data?
    (view : View σ)
    (s : σ) :
    Option (KeyMap String) :=
  (view.configMap? s settingsMap).map ConfigMap.settings

/-- The settings are in a later revision, or they are the same. -/
def Later
    (view : View σ)
    (revision : σ → Nat)
    (s s' : σ) :
    Prop :=
  revision s < revision s' ∨
    revision s' = revision s ∧ view.configMap? s' settingsMap = view.configMap? s settingsMap

/-- A server with the scripts of its clients. -/
structure System (σ : Type) where
  state : σ
  scripts : List (Script Unit)

/-- A step of a system: the next request of a client, or an edit of the settings from outside. -/
inductive Move
  | request (client : Nat)
  | edit (f : KeyMap String → KeyMap String)

namespace System

/-- Invocations before their first requests. -/
def start
    (isThere : String → Bool)
    (invocations : List Invocation)
    (s : σ) :
    System σ :=
  ⟨s, invocations.map fun i => settle (i.script isThere)⟩

/-- The invocation of a client has reported success. -/
def Succeeds
    (sys : System σ)
    (client : Nat) :
    Prop :=
  sys.scripts[client]? = some (done ())

/-- One move of a system. -/
inductive Step
    (server : Server σ)
    (view : View σ)
    (revision : σ → Nat) :
    System σ → Move → System σ → Prop
  | request
      {sys : System σ}
      {client : Nat}
      {r : Request}
      {next : Response → Script Unit} :
      sys.scripts[client]? = some (send r next) →
        Step server view revision sys (.request client)
          ⟨(server.answer sys.state r).2,
            sys.scripts.set client (settle (next (server.answer sys.state r).1))⟩
  | edit
      {sys : System σ}
      {f : KeyMap String → KeyMap String}
      {s' : σ} :
      data? view s' = (data? view sys.state).map f →
        Later view revision sys.state s' →
          Step server view revision sys (.edit f) ⟨s', sys.scripts⟩

/-- Moves of a system one after the other. -/
inductive Steps
    (server : Server σ)
    (view : View σ)
    (revision : σ → Nat)
    (first : System σ) :
    List Move → System σ → Prop
  | start :
      Steps server view revision first [] first
  | next
      {moves : List Move}
      {move : Move}
      {sys sys' : System σ} :
      Steps server view revision first moves sys →
        Step server view revision sys move sys' →
          Steps server view revision first (moves ++ [move]) sys'

variable {server : Server σ} {view : View σ} {revision : σ → Nat}

/-- A request makes one step of the script of its client. -/
theorem Step.effect_of_request
    {sys sys' : System σ}
    {client : Nat}
    {x : Script Unit}
    (hstep : Step server view revision sys (.request client) sys')
    (hx : sys.scripts[client]? = some x) :
    ∃ r x', sys'.scripts[client]? = some x' ∧
      effect server x sys.state = (effect server x' sys'.state).after r := by
  cases hstep with
  | @request _ r next hsend =>
      cases hsend.symm.trans hx
      have hlt : client < sys.scripts.length :=
        (List.getElem?_eq_some_iff.mp hsend).1
      refine ⟨r, settle (next (server.answer sys.state r).1), ?_, ?_⟩
      · simp [hlt]
      · rw [effect_send, effect_settle]

/-- A client that makes all the moves comes to the effect of its script. -/
theorem Steps.effect_of_alone
    {first sys : System σ}
    {moves : List Move}
    {client : Nat}
    {x : Script Unit}
    (hsteps : Steps server view revision first moves sys)
    (halone : ∀ move ∈ moves, move = .request client)
    (hx : first.scripts[client]? = some x) :
    ∃ x', sys.scripts[client]? = some x' ∧
      (effect server x' sys.state).outcome = (effect server x first.state).outcome ∧
      (effect server x' sys.state).state = (effect server x first.state).state := by
  induction hsteps with
  | start =>
      exact ⟨x, hx, rfl, rfl⟩
  | @next moves move sys sys' hsteps hstep ih =>
      obtain ⟨x', hx', houtcome, hstate⟩ :=
        ih fun m hm => halone m (List.mem_append_left _ hm)
      have hmove : move = .request client := halone move (by simp)
      subst hmove
      obtain ⟨r, x'', hx'', heffect⟩ := hstep.effect_of_request hx'
      rw [heffect] at houtcome hstate
      exact ⟨x'', hx'', houtcome, hstate⟩

end System

/-- What is done to the data by itself: an edit, or the update of a client. -/
inductive Turn
  | edit (f : KeyMap String → KeyMap String)
  | update (client : Nat) (changes : Changes)

namespace Turn

/-- The data after a turn. -/
def apply
    (data : KeyMap String) :
    Turn → KeyMap String
  | edit f => f data
  | update _ changes => changes.applyTo data

/-- The client whose update a turn is. -/
def client? : Turn → Option Nat
  | edit _ => none
  | update client _ => some client

/-- The clients whose updates have taken their turns. -/
def clients
    (turns : List Turn) :
    List Nat :=
  turns.filterMap client?

@[simp] theorem clients_append_edit
    (turns : List Turn)
    (f : KeyMap String → KeyMap String) :
    clients (turns ++ [edit f]) = clients turns := by
  simp [clients, client?, List.filterMap_append]

@[simp] theorem clients_append_update
    (turns : List Turn)
    (client : Nat)
    (changes : Changes) :
    clients (turns ++ [update client changes]) = clients turns ++ [client] := by
  simp [clients, client?, List.filterMap_append]

/-- A turn that does not set a key. -/
def Spares
    (k : String) :
    Turn → Prop
  | edit f => ∀ data, (f data).get? k = data.get? k
  | update _ changes => changes.values.get? k = none

theorem Spares.get?_apply
    {k : String}
    {turn : Turn}
    (h : turn.Spares k)
    (data : KeyMap String) :
    (turn.apply data).get? k = data.get? k := by
  cases turn with
  | edit f => exact h data
  | update client changes =>
      have hnone : changes.values.get? k = none := h
      rw [apply, changes.get?_applyTo, hnone]
      rfl

/-- What turns do not set stays. -/
theorem get?_foldl_apply
    {k : String}
    {turns : List Turn}
    (h : ∀ turn ∈ turns, turn.Spares k)
    (data : KeyMap String) :
    (turns.foldl apply data).get? k = data.get? k := by
  induction turns generalizing data with
  | nil => rfl
  | cons turn rest ih =>
      have hrest := ih (fun t ht => h t (List.mem_cons_of_mem turn ht)) (turn.apply data)
      exact hrest.trans ((h turn List.mem_cons_self).get?_apply data)

end Turn

/-- What moves come to: an edit is a turn, and so can a request be, for the update of its client. -/
inductive Accounts : List Move → List Turn → Prop
  | nil :
      Accounts [] []
  | edit
      {moves : List Move}
      {turns : List Turn}
      (f : KeyMap String → KeyMap String) :
      Accounts moves turns →
        Accounts (moves ++ [.edit f]) (turns ++ [.edit f])
  | quiet
      {moves : List Move}
      {turns : List Turn}
      (client : Nat) :
      Accounts moves turns →
        Accounts (moves ++ [.request client]) turns
  | update
      {moves : List Move}
      {turns : List Turn}
      (client : Nat)
      (changes : Changes) :
      Accounts moves turns →
        Accounts (moves ++ [.request client]) (turns ++ [.update client changes])

end Autoscaling
end ServingAdmin
