import ServingAdmin.Proofs.Autoscaling.Stage
import ServingAdmin.Proofs.Run.Effect

/-!
# No update is lost

However the requests of several updates and edits from outside come in between each other,
what becomes of the settings is what becomes of them when the edits and the updates that
report success take their turns one after the other.  An update takes its turn at one of
its own requests: at its replacement, or at its look at the settings if there is nothing
to change.

The proof is by induction on the moves.  Every client is at a stage of its update, and the
turns so far account for the data and for the successes.
-/

namespace ServingAdmin
namespace Autoscaling

open Cluster
open Script

variable {σ : Type}
variable {server : Server σ} {view : View σ} {revision : σ → Nat} {stamp : Nat → String}

/-- A client of a list of invocations has an update. -/
def Runs
    (invocations : List Invocation)
    (client : Nat)
    (u : Update) :
    Prop :=
  ∃ i, invocations[client]? = some i ∧ i.command = .updateSettings u

/-- Turns that explain what a system has come to: they are those of its moves, with one turn for
every client that has reported success, by changes that its update was accepted for. -/
structure Explains
    (view : View σ)
    (invocations : List Invocation)
    (s : σ)
    (moves : List Move)
    (sys : System σ)
    (turns : List Turn) :
    Prop where
  accounts :
    Accounts moves turns
  once :
    (Turn.clients turns).Nodup
  succeeds :
    ∀ client, client ∈ Turn.clients turns ↔ sys.Succeeds client
  accepted :
    ∀ client changes, .update client changes ∈ turns →
      ∃ u, Runs invocations client u ∧ u.check = .ok changes
  data :
    data? view sys.state = (data? view s).map fun data => turns.foldl Turn.apply data

/-- Every client is at a stage of its update. -/
def Staged
    (view : View σ)
    (revision : σ → Nat)
    (stamp : Nat → String)
    (invocations : List Invocation)
    (sys : System σ) :
    Prop :=
  ∀ client x, sys.scripts[client]? = some x →
    ∃ u, Runs invocations client u ∧ Stage view revision stamp u sys.state x

/-- An invocation begins with its update, or fails because it gets no parameters. -/
theorem settle_script
    {i : Invocation}
    {u : Update}
    (hi : i.command = .updateSettings u)
    (isThere : String → Bool) :
    settle (i.script isThere) = settle (updateCommand u) ∨
      ∃ failure, settle (i.script isThere) = fail failure := by
  rw [Invocation.script, hi]
  cases Parameters.resolve isThere i.kubeConfig with
  | error failure => exact Or.inr ⟨failure, rfl⟩
  | ok parameters => exact Or.inl (settle_reportAll_bind _ _)

theorem settle_updateCommand_ne_done
    (u : Update) :
    settle (updateCommand u) ≠ done () := by
  cases hu : u.check with
  | error failure =>
      rw [settle_updateCommand_of_error hu]
      simp
  | ok changes =>
      rw [settle_updateCommand_of_ok hu]
      exact (asks_carryOut changes).settle_ne_done ()

section Start

variable {isThere : String → Bool} {invocations : List Invocation}
variable (hupdates : ∀ i ∈ invocations, ∃ u, i.command = .updateSettings u)
include hupdates

theorem exists_of_start
    {s : σ}
    {client : Nat}
    {x : Script Unit}
    (hx : (System.start isThere invocations s).scripts[client]? = some x) :
    ∃ i u, invocations[client]? = some i ∧ i.command = .updateSettings u ∧
      x = settle (i.script isThere) := by
  rw [System.start, List.getElem?_map] at hx
  obtain ⟨i, hi, rfl⟩ := Option.map_eq_some_iff.mp hx
  obtain ⟨u, hu⟩ := hupdates i (List.mem_of_getElem? hi)
  exact ⟨i, u, hi, hu, rfl⟩

theorem staged_start
    (s : σ) :
    Staged view revision stamp invocations (System.start isThere invocations s) := by
  intro client x hx
  obtain ⟨i, u, hi, hu, rfl⟩ := exists_of_start hupdates hx
  refine ⟨u, ⟨i, hi, hu⟩, ?_⟩
  rcases settle_script hu isThere with hscript | ⟨failure, hscript⟩
  · rw [hscript]
    exact .starting
  · rw [hscript]
    exact .failed

theorem explains_start
    (s : σ) :
    Explains view invocations s [] (System.start isThere invocations s) [] where
  accounts := .nil
  once := List.nodup_nil
  succeeds client := by
    refine ⟨fun hmem => by simp [Turn.clients] at hmem, fun hdone => ?_⟩
    obtain ⟨i, u, _, hu, hx⟩ := exists_of_start hupdates hdone
    rcases settle_script hu isThere with hscript | ⟨failure, hscript⟩
    · exact absurd (hx.trans hscript).symm (settle_updateCommand_ne_done u)
    · cases hx.trans hscript
  accepted client changes hmem := by simp at hmem
  data := by simp [System.start]

end Start

section Next

variable {invocations : List Invocation} {s : σ}
variable {moves : List Move} {sys : System σ} {turns : List Turn}

/-- An edit is the next turn. -/
theorem Explains.edit
    {f : KeyMap String → KeyMap String}
    {s' : σ}
    (h : Explains view invocations s moves sys turns)
    (hdata : data? view s' = (data? view sys.state).map f) :
    Explains view invocations s (moves ++ [.edit f]) ⟨s', sys.scripts⟩ (turns ++ [.edit f]) where
  accounts := .edit f h.accounts
  once := by
    rw [Turn.clients_append_edit]
    exact h.once
  succeeds client := by
    rw [Turn.clients_append_edit]
    exact h.succeeds client
  accepted client changes hmem := h.accepted client changes (by simpa using hmem)
  data := by
    rw [hdata, h.data, Option.map_map]
    simp [Function.comp_def, Turn.apply]

/-- A client that has just moved has succeeded if nothing is left of its script, and the others
have succeeded as before. -/
theorem succeeds_set
    {client : Nat}
    {x : Script Unit}
    (hx : sys.scripts[client]? = some x)
    (s' : σ)
    (x' : Script Unit)
    (other : Nat) :
    System.Succeeds ⟨s', sys.scripts.set client x'⟩ other ↔
      if client = other then x' = done () else sys.Succeeds other := by
  have hlt : client < sys.scripts.length := (List.getElem?_eq_some_iff.mp hx).1
  rw [System.Succeeds, List.getElem?_set]
  by_cases hother : client = other
  · simp [hother ▸ hlt, hother]
  · simp [hother, System.Succeeds]

/-- A request that comes to nothing is no turn. -/
theorem Explains.quiet
    {client : Nat}
    {r : Request}
    {next : Response → Script Unit}
    {x' : Script Unit}
    (h : Explains view invocations s moves sys turns)
    (hsend : sys.scripts[client]? = some (send r next))
    (hx' : x' ≠ done ()) :
    Explains view invocations s (moves ++ [.request client])
      ⟨sys.state, sys.scripts.set client x'⟩ turns where
  accounts := .quiet client h.accounts
  once := h.once
  succeeds other := by
    rw [h.succeeds, succeeds_set hsend]
    by_cases hother : client = other
    · subst hother
      simp [System.Succeeds, hsend, hx']
    · simp [hother]
  accepted := h.accepted
  data := h.data

/-- A request at which an update succeeds is its turn. -/
theorem Explains.effective
    {client : Nat}
    {r : Request}
    {next : Response → Script Unit}
    {u : Update}
    {changes : Changes}
    {s' : σ}
    (h : Explains view invocations s moves sys turns)
    (hsend : sys.scripts[client]? = some (send r next))
    (hruns : Runs invocations client u)
    (hu : u.check = .ok changes)
    (hdata : data? view s' = (data? view sys.state).map changes.applyTo) :
    Explains view invocations s (moves ++ [.request client])
      ⟨s', sys.scripts.set client (done ())⟩ (turns ++ [.update client changes]) where
  accounts := .update client changes h.accounts
  once := by
    have hnew : client ∉ Turn.clients turns := by
      rw [h.succeeds, System.Succeeds, hsend]
      simp
    rw [Turn.clients_append_update, List.nodup_append]
    refine ⟨h.once, by simp, ?_⟩
    rintro a ha b hb rfl
    exact hnew (List.mem_singleton.mp hb ▸ ha)
  succeeds other := by
    rw [Turn.clients_append_update, List.mem_append, h.succeeds, succeeds_set hsend]
    by_cases hother : client = other
    · simp [hother]
    · simp [hother, Ne.symm hother]
  accepted other changes' hmem := by
    rcases List.mem_append.mp hmem with hmem | hmem
    · exact h.accepted other changes' hmem
    · cases List.mem_singleton.mp hmem
      exact ⟨u, hruns, hu⟩
  data := by
    rw [hdata, h.data, Option.map_map]
    simp [Function.comp_def, Turn.apply]

theorem Staged.of_later
    {s' : σ}
    (h : Staged view revision stamp invocations sys)
    (hlater : Later view revision sys.state s') :
    Staged view revision stamp invocations ⟨s', sys.scripts⟩ := by
  intro client x hx
  obtain ⟨u, hruns, hstage⟩ := h client x hx
  exact ⟨u, hruns, hstage.of_later hlater⟩

theorem Staged.set
    {client : Nat}
    {u : Update}
    {x' : Script Unit}
    (h : Staged view revision stamp invocations sys)
    (hruns : Runs invocations client u)
    (hx' : Stage view revision stamp u sys.state x') :
    Staged view revision stamp invocations ⟨sys.state, sys.scripts.set client x'⟩ := by
  intro other x hx
  rw [List.getElem?_set] at hx
  by_cases hother : client = other
  · subst hother
    rw [if_pos rfl] at hx
    by_cases hlt : client < sys.scripts.length
    · rw [if_pos hlt, Option.some.injEq] at hx
      exact ⟨u, hruns, hx ▸ hx'⟩
    · rw [if_neg hlt] at hx
      cases hx
  · rw [if_neg hother] at hx
    exact h other x hx

/-- The next move keeps every client at a stage and adds at most one turn. -/
theorem explains_next
    (h : server.CountsRevisions view settingsMap revision stamp)
    {move : Move}
    {sys' : System σ}
    (hstaged : Staged view revision stamp invocations sys)
    (hexplains : Explains view invocations s moves sys turns)
    (hstep : System.Step server view revision sys move sys') :
    Staged view revision stamp invocations sys' ∧
      ∃ turns', Explains view invocations s (moves ++ [move]) sys' turns' := by
  cases hstep with
  | edit hdata hlater =>
      exact ⟨hstaged.of_later hlater, _, hexplains.edit hdata⟩
  | @request client r next hsend =>
      obtain ⟨u, hruns, hstage⟩ := hstaged client _ hsend
      have hanswered := hstage.answered h
      generalize (server.answer sys.state r).2 = s', settle _ = x' at hanswered ⊢
      cases hanswered with
      | quiet hstage' hx' =>
          exact ⟨hstaged.set hruns hstage', _, hexplains.quiet hsend hx'⟩
      | effective hu hdata hlater =>
          refine ⟨?_, _, hexplains.effective hsend hruns hu hdata⟩
          exact (hstaged.of_later hlater).set hruns .succeeded

end Next

/-- Whatever the moves are, turns explain them. -/
theorem explains_of_steps
    (h : server.CountsRevisions view settingsMap revision stamp)
    {isThere : String → Bool}
    {invocations : List Invocation}
    (hupdates : ∀ i ∈ invocations, ∃ u, i.command = .updateSettings u)
    {s : σ}
    {moves : List Move}
    {sys : System σ}
    (hsteps : System.Steps server view revision (System.start isThere invocations s) moves sys) :
    Staged view revision stamp invocations sys ∧
      ∃ turns, Explains view invocations s moves sys turns := by
  induction hsteps with
  | start =>
      exact ⟨staged_start hupdates s, [], explains_start hupdates s⟩
  | next _ hstep ih =>
      obtain ⟨hstaged, turns, hexplains⟩ := ih
      exact explains_next h hstaged hexplains hstep

/-- Updates and edits that go on side by side come to what they come to in turns, one by one: every
edit has a turn, an update has one if and only if it reports success, and what an update has set
stays until another turn sets it. -/
theorem no_update_lost
    (h : server.CountsRevisions view settingsMap revision stamp)
    {isThere : String → Bool}
    {invocations : List Invocation}
    (hupdates : ∀ i ∈ invocations, ∃ u, i.command = .updateSettings u)
    {s : σ}
    {moves : List Move}
    {sys : System σ}
    (hsteps : System.Steps server view revision (System.start isThere invocations s) moves sys) :
    ∃ turns, Explains view invocations s moves sys turns ∧
      ∀ before client changes after, turns = before ++ .update client changes :: after →
        ∀ k v, changes.values.get? k = some v → (∀ turn ∈ after, turn.Spares k) →
          ∀ data, data? view sys.state = some data → data.get? k = some v := by
  obtain ⟨_, turns, hexplains⟩ := explains_of_steps h hupdates hsteps
  refine ⟨turns, hexplains, ?_⟩
  rintro before client changes after rfl k v hv hspares data hdata
  rw [hexplains.data, Option.map_eq_some_iff] at hdata
  obtain ⟨first, _, rfl⟩ := hdata
  rw [List.foldl_append, List.foldl_cons, Turn.get?_foldl_apply hspares, Turn.apply,
    changes.get?_applyTo, hv]
  rfl

/-- An edit that gives a key a value. -/
def setMaxScale
    (data : KeyMap String) :
    KeyMap String :=
  data.insert "max-scale" "9"

/-- The cluster whose settings have been updated and then edited. -/
def editedCluster :
    Versioned :=
  let data := KeyMap.empty.insert "enable-scale-to-zero" "false"
  (freshCluster.put settingsMap ⟨none, some data, none⟩).put settingsMap
    ⟨none, some (setMaxScale data), none⟩

/-- Two clients read the settings, the second one replaces them, they are edited, and the
replacement of the first one is refused. -/
theorem no_update_lost_freshCluster :
    let invocations : List Invocation := [
      ⟨["autoscaling", "update"], 0, false, none, .updateSettings ⟨true, false, []⟩⟩,
      ⟨["autoscaling", "update"], 0, false, none, .updateSettings ⟨false, true, []⟩⟩]
    let moves : List Move := [.request 0, .request 1, .request 0, .request 1, .request 1,
      .edit setMaxScale, .request 0]
    Versioned.server.CountsRevisions Versioned.view settingsMap (Versioned.revision settingsMap)
        revisionStamp ∧
      (∀ i ∈ invocations, ∃ u, i.command = .updateSettings u) ∧
      ∃ sys,
        System.Steps Versioned.server Versioned.view (Versioned.revision settingsMap)
            (System.start (fun _ => false) invocations freshCluster) moves sys ∧
          sys.Succeeds 1 ∧ ¬ sys.Succeeds 0 ∧
          ∃ turns, Explains Versioned.view invocations freshCluster moves sys turns := by
  intro invocations moves
  have hupdates : ∀ i ∈ invocations, ∃ u, i.command = .updateSettings u := by
    simp [invocations]
  have hsteps :
      ∃ sys,
        System.Steps Versioned.server Versioned.view (Versioned.revision settingsMap)
            (System.start (fun _ => false) invocations freshCluster) moves sys ∧
          sys.Succeeds 1 ∧ ¬ sys.Succeeds 0 := by
    refine ⟨_, .next (.next (.next (.next (.next (.next (.next .start (.request rfl))
      (.request rfl)) (.request rfl)) (.request rfl)) (.request rfl))
      (@System.Step.edit _ _ _ _ _ _ editedCluster ?_ ?_)) (.request rfl), ?_, ?_⟩
    · rfl
    · exact Or.inl (by decide)
    · change _ = _
      rfl
    · intro hdone
      cases hdone
  obtain ⟨sys, hsteps, hsecond, hfirst⟩ := hsteps
  obtain ⟨turns, hexplains, _⟩ :=
    no_update_lost (Versioned.countsRevisions settingsMap) hupdates hsteps
  exact ⟨Versioned.countsRevisions settingsMap, hupdates, sys, hsteps, hsecond, hfirst, turns,
    hexplains⟩

end Autoscaling
end ServingAdmin
