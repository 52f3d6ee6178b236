import Mathlib.Order.Bounds.Basic
import ServingAdmin.Table.Basic

/-!
# The widths of columns

The width of a column is the greatest length of a cell in it, over the lines that are shown
(`IsWidth`).  Widths are found line by line: widths of some lines become by `widen` those of one
more (`AreWidths.widen`), so a table has the widths of all its lines (`areWidths`), and each of its
cells has a width, which it fits.
-/

namespace ServingAdmin
namespace Table

variable {lines : List (List (List Char))} {row : List (List Char)} {widths : List Nat}

section Shown

/-- The table with given headers and with rows that are added one after the other. -/
def build
    (headers : List String)
    (rows : List (List String))
    (hide : Bool) :
    Table :=
  (rows.foldl addRow (ofHeaders headers)).hidingHeaders hide

/-- The lines that a table shows: the headers in upper case, if they are not hidden, and the
rows. -/
def shown
    (headers : List String)
    (rows : List (List String))
    (hide : Bool) :
    List (List String) :=
  (if hide then [] else [headers.map Text.upper]) ++ rows

/-- The cells of the lines that a table shows. -/
def shownCells
    (headers : List String)
    (rows : List (List String))
    (hide : Bool) :
    List (List (List Char)) :=
  (shown headers rows hide).map (·.map String.toList)

theorem foldl_addRow
    (t : Table)
    (rows : List (List String)) :
    rows.foldl addRow t = { t with rows := t.rows ++ rows } := by
  induction rows generalizing t with
  | nil => simp
  | cons row rows ih =>
      rw [List.foldl_cons, ih]
      simp [addRow]

theorem cells_build
    (headers : List String)
    (rows : List (List String))
    (hide : Bool) :
    (build headers rows hide).cells = shownCells headers rows hide := by
  rw [build, foldl_addRow, cells, shownCells, shown]
  cases hide with
  | true => rfl
  | false => rfl

end Shown

section Columns

/-- The lengths of the cells in a column. -/
def columnLengths
    (lines : List (List (List Char)))
    (k : Nat) :
    Set Nat :=
  {n | ∃ row ∈ lines, ∃ cell, row[k]? = some cell ∧ cell.length = n}

/-- The width of a column is the length of its longest cell. -/
def IsWidth
    (lines : List (List (List Char)))
    (k w : Nat) :
    Prop :=
  IsGreatest (columnLengths lines k) w

/-- All columns of some lines have their widths. -/
structure AreWidths
    (lines : List (List (List Char)))
    (widths : List Nat) :
    Prop where
  isWidth : ∀ k w, widths[k]? = some w → IsWidth lines k w
  covers : ∀ row ∈ lines, row.length ≤ widths.length

theorem length_widen
    (widths : List Nat)
    (row : List (List Char)) :
    (widen widths row).length = max widths.length row.length := by
  fun_induction widen widths row with
  | case1 widths => simp
  | case2 cell rest ih => simp [ih]
  | case3 w widths cell rest ih => simp [ih, Nat.succ_max_succ]

theorem getElem?_widen
    (widths : List Nat)
    (row : List (List Char))
    (k : Nat) :
    (widen widths row)[k]? = Option.merge max widths[k]? (row[k]?.map List.length) := by
  fun_induction widen widths row generalizing k with
  | case1 widths => simp
  | case2 cell rest ih =>
      cases k with
      | zero => simp
      | succ k => simp [ih]
  | case3 w widths cell rest ih =>
      cases k with
      | zero => simp
      | succ k => simp [ih]

theorem columnLengths_append
    (k : Nat) :
    columnLengths (lines ++ [row]) k =
      columnLengths lines k ∪ {n | ∃ cell, row[k]? = some cell ∧ cell.length = n} := by
  ext n
  simp [columnLengths, or_and_right, exists_or]

/-- There are no cells in a column behind the widths. -/
theorem AreWidths.columnLengths_eq_empty
    (h : AreWidths lines widths)
    {k : Nat}
    (hk : widths[k]? = none) :
    columnLengths lines k = ∅ := by
  refine Set.eq_empty_iff_forall_notMem.mpr ?_
  rintro n ⟨row, hrow, cell, hcell, -⟩
  have hcovers := h.covers row hrow
  have hlength := List.getElem?_eq_none_iff.mp hk
  obtain ⟨hlt, -⟩ := List.getElem?_eq_some_iff.mp hcell
  omega

/-- Widths of some lines become widths of one line more. -/
theorem AreWidths.widen
    (h : AreWidths lines widths) :
    AreWidths (lines ++ [row]) (widen widths row) := by
  refine ⟨fun k w hw => ?_, fun other hother => ?_⟩
  · rw [getElem?_widen] at hw
    rw [IsWidth, columnLengths_append]
    cases hrow : row[k]? with
    | none =>
        have hold : widths[k]? = some w := by
          simpa [hrow] using hw
        have hwidth : IsGreatest (columnLengths lines k) w := h.isWidth k w hold
        simpa using hwidth
    | some cell =>
        have hcell : {n | ∃ other, some cell = some other ∧ other.length = n} = {cell.length} := by
          ext n
          simp [eq_comm]
        rw [hcell]
        cases hwidth : widths[k]? with
        | none =>
            have hnew : cell.length = w := by
              simpa [hrow, hwidth] using hw
            rw [h.columnLengths_eq_empty hwidth, Set.empty_union, ← hnew]
            exact isGreatest_singleton
        | some v =>
            have hmax : max v cell.length = w := by
              simpa [hrow, hwidth] using hw
            rw [← hmax]
            exact (h.isWidth k v hwidth).union isGreatest_singleton
  · rw [length_widen]
    rcases List.mem_append.mp hother with hold | hnew
    · exact (h.covers other hold).trans (Nat.le_max_left _ _)
    · rw [List.mem_singleton.mp hnew]
      exact Nat.le_max_right _ _

theorem AreWidths.foldl
    (h : AreWidths lines widths)
    (rest : List (List (List Char))) :
    AreWidths (lines ++ rest) (rest.foldl Table.widen widths) := by
  induction rest generalizing lines widths with
  | nil => simpa using h
  | cons row rest ih =>
      have hrest : AreWidths (lines ++ [row] ++ rest) (rest.foldl Table.widen _) := ih h.widen
      rwa [List.append_assoc, List.singleton_append] at hrest

theorem areWidths
    (t : Table) :
    AreWidths t.cells t.widths := by
  have hnone : AreWidths [] [] := ⟨by simp, by simp⟩
  exact hnone.foldl t.cells

/-- Every cell of a line has a width to look up, and is no longer. -/
def Fits
    (widths : List Nat)
    (row : List (List Char)) :
    Prop :=
  ∀ (k : Nat) (cell : List Char), row[k]? = some cell → ∃ w, widths[k]? = some w ∧ cell.length ≤ w

theorem AreWidths.fits
    (h : AreWidths lines widths)
    (hrow : row ∈ lines) :
    Fits widths row := by
  intro k cell hcell
  obtain ⟨hlt, -⟩ := List.getElem?_eq_some_iff.mp hcell
  have hk : k < widths.length := Nat.lt_of_lt_of_le hlt (h.covers row hrow)
  have hwidth := h.isWidth k _ (List.getElem?_eq_getElem hk)
  exact ⟨widths[k], List.getElem?_eq_getElem hk, hwidth.2 ⟨row, hrow, cell, hcell, rfl⟩⟩

end Columns

end Table
end ServingAdmin
