import Mathlib.Algebra.BigOperators.Intervals
import ServingAdmin.Proofs.Table.Printing
import ServingAdmin.Proofs.Table.Widths

/-!
# The layout of a printed table

Each cell of a line stands where its column begins, which is three spaces behind the width of the
column before, and what is in no cell is a space (`LaidOut`).  Such a text is made of a line by
`align` if its cells fit their widths (`laidOut_align`), as those of a table do, so a printed table
consists of such texts without the white space at their ends (`printed_aligned`).
-/

namespace ServingAdmin
namespace Table

/-- A text has the cells of a line at given places, and is filled up between them with spaces. -/
structure LaidOut
    (start : Nat → Nat)
    (row : List (List Char))
    (text : List Char) :
    Prop where
  /-- Every cell stands at its place. -/
  cellAt : ∀ j cell, row[j]? = some cell → cell <+: text.drop (start j)
  /-- What is in no cell is a space. -/
  spaces : ∀ p c, text[p]? = some c →
    (∀ j cell, row[j]? = some cell → p < start j ∨ start j + cell.length ≤ p) → c = ' '
  /-- The text ends with its last cell. -/
  ends : ∀ front last, row = front ++ [last] → text.length = start front.length + last.length
  empty : row = [] → text = []

section Cells

variable {start start' : Nat → Nat} {cell : List Char} {row : List (List Char)} {text : List Char}
  {pad : Nat}

/-- A cell and some spaces in front of a text that has all other cells. -/
theorem LaidOut.cons
    (h : LaidOut start' row text)
    (hne : row ≠ [])
    (hzero : start 0 = 0)
    (hsucc : ∀ j, start (j + 1) = cell.length + pad + start' j) :
    LaidOut start (cell :: row) (cell ++ List.replicate pad ' ' ++ text) := by
  have hfront : (cell ++ List.replicate pad ' ').length = cell.length + pad := by
    simp
  refine ⟨fun j other hj => ?_, fun p c hp hout => ?_, fun front last hlast => ?_, by simp⟩
  · cases j with
    | zero =>
        obtain rfl := Option.some.inj hj
        rw [hzero, List.drop_zero, List.append_assoc]
        exact List.prefix_append _ _
    | succ j =>
        rw [hsucc, ← hfront, List.drop_length_add_append]
        exact h.cellAt j other hj
  · by_cases hcell : p < cell.length
    · have h0 := hout 0 cell rfl
      omega
    · by_cases hpad : p < (cell ++ List.replicate pad ' ').length
      · rw [List.getElem?_append_left hpad, List.getElem?_append_right (by omega)] at hp
        exact List.eq_of_mem_replicate (List.mem_of_getElem? hp)
      · rw [List.getElem?_append_right (by omega), hfront] at hp
        refine h.spaces _ c hp fun j other hj => ?_
        have hj' := hout (j + 1) other hj
        rw [hsucc] at hj'
        omega
  · cases front with
    | nil => exact absurd (List.cons.inj hlast).2 hne
    | cons first front =>
        obtain ⟨-, hrow⟩ := List.cons.inj hlast
        rw [List.length_append, hfront, h.ends front last hrow, List.length_cons, hsucc]
        omega

theorem laidOut_singleton
    (hzero : start 0 = 0) :
    LaidOut start [cell] cell := by
  refine ⟨fun j other hj => ?_, fun p c hp hout => ?_, fun front last hlast => ?_, by simp⟩
  · cases j with
    | zero =>
        obtain rfl := Option.some.inj hj
        rw [hzero, List.drop_zero]
    | succ j => simp at hj
  · have h0 := hout 0 cell rfl
    obtain ⟨hlt, -⟩ := List.getElem?_eq_some_iff.mp hp
    omega
  · obtain ⟨rfl, hlast⟩ | ⟨-, hnil⟩ := List.singleton_eq_append_iff.mp hlast
    · obtain rfl := (List.cons.inj hlast).1
      simp [hzero]
    · cases hnil

/-- Cells that fit their widths are laid out, each column three spaces behind the width of the one
before. -/
theorem laidOut_align
    {widths : List Nat}
    (hfits : Fits widths row) :
    LaidOut (fun j => ∑ k ∈ Finset.range j, (widths.getD k 0 + gap)) row (align widths row) := by
  fun_induction align widths row with
  | case1 widths => exact ⟨by simp, by simp, by simp, fun _ => rfl⟩
  | case2 widths cell => exact laidOut_singleton rfl
  | case3 widths cell rest hrest ih =>
      obtain ⟨w, hw, hcell⟩ := hfits 0 cell List.getElem?_cons_zero
      cases widths with
      | nil => simp at hw
      | cons v widths =>
          obtain rfl : v = w := Option.some.inj hw
          refine (ih fun k other hk => ?_).cons hrest rfl fun j => ?_
          · exact hfits (k + 1) other hk
          · rw [Finset.sum_range_succ']
            simp
            omega

end Cells

/-- A table is always printed whole into a sink without a limit.  Every cell that is shown has a
width to look up, which is the greatest length of a cell in its column, and is no longer than that.
The lines are the headers, if they are not hidden, and the rows, each laid out by these widths,
without the white space at its end and with a newline behind it. -/
theorem printed_aligned
    (headers : List String)
    (rows : List (List String))
    (hide : Bool) :
    ∃ (width : Nat → Nat) (texts : List (List Char)),
      (∀ row ∈ shownCells headers rows hide, ∀ k cell, row[k]? = some cell →
        IsWidth (shownCells headers rows hide) k (width k) ∧
          (build headers rows hide).widths[k]? = some (width k) ∧ cell.length ≤ width k) ∧
      List.Forall₂ (LaidOut fun j => ∑ k ∈ Finset.range j, (width k + 3))
        (shownCells headers rows hide) texts ∧
      printTo (.ok (build headers rows hide)) (.ofCapacity none) =
        (⟨none, (String.ofList (texts.flatMap fun text =>
          Text.trimEnd text ++ ['\n'])).toUTF8.toList⟩, none) := by
  have hwidths := areWidths (build headers rows hide)
  rw [← cells_build]
  generalize build headers rows hide = t at hwidths ⊢
  refine ⟨fun k => t.widths.getD k 0, t.cells.map (align t.widths), ?_, ?_, ?_⟩
  · intro row hrow k cell hcell
    obtain ⟨w, hw, hlength⟩ := hwidths.fits hrow k cell hcell
    have hwidth : t.widths.getD k 0 = w := by
      rw [List.getD_eq_getElem?_getD, hw, Option.getD_some]
    dsimp only
    rw [hwidth]
    exact ⟨hwidths.isWidth k w hw, hw, hlength⟩
  · rw [List.forall₂_map_right_iff, List.forall₂_same]
    exact fun row hrow => laidOut_align (hwidths.fits hrow)
  · rw [printTo_unlimited, text, lines, List.flatMap_map, List.flatMap_map]

end Table
end ServingAdmin
