import Mathlib.Algebra.Ring.Nat
import ServingAdmin.Proofs.Table.Printing
import ServingAdmin.Proofs.Text.Lines

/-!
# Newlines in cells

A newline in a cell is printed as it is, so behind it another line begins.  Only white space at the
end of a line is taken away, and newlines with it, so a row takes up as many further lines as there
are newlines in its cells that have something other than white space behind them, in their cell or
in a later one (`furtherLines`).
-/

namespace ServingAdmin
namespace Table

open Text

/-- The lines that a row takes up beside its own. -/
def furtherLines
    (row : List (List Char)) :
    Nat :=
  (trimEnd row.flatten).count '\n'

theorem blank_spaces
    (n : Nat) :
    Blank (List.replicate n ' ') := by
  intro c hc
  rw [List.eq_of_mem_replicate hc]
  decide

theorem align_cons_cons
    (widths : List Nat)
    (cell next : List Char)
    (rest : List (List Char)) :
    align widths (cell :: next :: rest) =
      cell ++ List.replicate (widths.headD 0 - cell.length + gap) ' ' ++
        align widths.tail (next :: rest) := by
  rw [align]
  simp

theorem blank_align_iff
    (widths : List Nat)
    (row : List (List Char)) :
    Blank (align widths row) ↔ Blank row.flatten := by
  induction row generalizing widths with
  | nil => rfl
  | cons cell rest ih =>
      cases rest with
      | nil => simp [align]
      | cons next rest =>
          rw [align_cons_cons, blank_append, blank_append, ih, and_iff_left (blank_spaces _),
            ← blank_append, ← List.flatten_cons]

/-- The spaces between cells make no difference to the newlines of a line. -/
theorem count_newline_align
    (widths : List Nat)
    (row : List (List Char)) :
    (trimEnd (align widths row)).count '\n' = furtherLines row := by
  have hspaces : ∀ n, (List.replicate n ' ').count '\n' = 0 := by
    simp [List.count_replicate]
  induction row generalizing widths with
  | nil => rfl
  | cons cell rest ih =>
      cases rest with
      | nil => simp [align, furtherLines]
      | cons next rest =>
          rw [furtherLines, align_cons_cons, List.flatten_cons, trimEnd_append, trimEnd_append,
            trimEnd_append]
          by_cases hblank : Blank (next :: rest).flatten
          · rw [if_pos hblank, if_pos ((blank_align_iff _ _).mpr hblank), if_pos (blank_spaces _)]
          · rw [if_neg hblank, if_neg fun h => hblank ((blank_align_iff _ _).mp h),
              List.count_append, List.count_append, List.count_append, hspaces, ih]
            rfl

/-- The printed text of a table is cut into lines by the newlines that end its rows and by those in
its cells. -/
theorem length_printedLines
    (t : Table) :
    ∃ lines, terminatedLines? t.text.toList = some lines ∧
      lines.length = t.cells.length + (t.cells.map furtherLines).sum := by
  refine ⟨t.lines.flatMap (splitAt '\n'), ?_, ?_⟩
  · rw [text, String.toList_ofList, terminatedLines?_flatMap_splitAt]
  · rw [lines, List.flatMap_map, List.length_flatMap]
    simp only [length_splitAt, count_newline_align]
    induction t.cells with
    | nil => rfl
    | cons row rows ih =>
        simp only [List.map_cons, List.sum_cons, List.length_cons] at ih ⊢
        omega

end Table
end ServingAdmin
