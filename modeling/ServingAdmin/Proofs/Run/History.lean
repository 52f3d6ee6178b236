import ServingAdmin.Run

/-!
# Histories of runs

The history of several command lines lists, run by run, the state before it and the state
after it.  The runs of a sequence are those of its history, and the state that a sequence
leaves is the last one of its history.  What every run keeps holds all along.
-/

namespace ServingAdmin

open Cluster (Server)

variable {σ : Type}

/-- A run between two states. -/
structure Record (σ : Type) where
  before : σ
  run : Run
  after : σ

namespace Run

variable (isThere : String → Bool)
variable (server : Server σ)

/-- The record of one command line. -/
def record
    (words : List String)
    (s : σ) :
    Record σ :=
  ⟨s, (ofWords isThere server words s).1, (ofWords isThere server words s).2⟩

/-- The records of several command lines, one after the other. -/
def history :
    List (List String) → σ → List (Record σ)
  | [], _ => []
  | words :: rest, s =>
      record isThere server words s ::
        history rest (record isThere server words s).after

/-- A sequence makes the runs of its history and leaves the last state of it. -/
theorem sequence_eq_history
    (lines : List (List String))
    (s : σ) :
    sequence isThere server lines s =
      ((history isThere server lines s).map Record.run,
        ((history isThere server lines s).map Record.after).getLastD s) := by
  induction lines generalizing s with
  | nil => rfl
  | cons words rest ih =>
      have hrest := ih (record isThere server words s).after
      simp only [record] at hrest
      simp only [sequence, hrest, history, record, List.map_cons, List.getLastD_cons]

variable {isThere server}

/-- Every record of a history is that of one of its command lines in some state. -/
theorem exists_of_mem_history
    {lines : List (List String)}
    {s : σ}
    {r : Record σ}
    (hr : r ∈ history isThere server lines s) :
    ∃ words ∈ lines, r = record isThere server words r.before := by
  induction lines generalizing s with
  | nil => cases hr
  | cons words rest ih =>
      rcases List.mem_cons.mp hr with rfl | hr
      · exact ⟨words, List.mem_cons_self, rfl⟩
      · obtain ⟨other, hother, hrecord⟩ := ih hr
        exact ⟨other, List.mem_cons_of_mem words hother, hrecord⟩

/-- What holds at first and is kept by every run holds after every run. -/
theorem history_invariant
    {P : σ → Prop}
    {lines : List (List String)}
    (hstep : ∀ words ∈ lines, ∀ s, P s → P (record isThere server words s).after)
    {s : σ}
    (hs : P s)
    {r : Record σ}
    (hr : r ∈ history isThere server lines s) :
    P r.after := by
  induction lines generalizing s with
  | nil => cases hr
  | cons words rest ih =>
      rcases List.mem_cons.mp hr with rfl | hr
      · exact hstep words List.mem_cons_self s hs
      · exact ih (fun other hother => hstep other (List.mem_cons_of_mem words hother))
          (hstep words List.mem_cons_self s hs) hr

end Run
end ServingAdmin
