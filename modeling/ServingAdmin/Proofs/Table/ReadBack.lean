import Mathlib.Data.List.Infix
import ServingAdmin.Proofs.Table.Layout
import ServingAdmin.Proofs.Text.Lines
import ServingAdmin.Proofs.Text.Separator

/-!
# Reading a printed table back

Between two cells of a printed line there are at least three spaces.  So if no cell has as many, and
cells neither begin nor end with white space, then a line is cut into its cells wherever three or
more spaces follow one another, and the printed text gives back the lines of the table, cell for
cell (`readBack_printed`).
-/

namespace ServingAdmin
namespace Table

open Text

section Reading

/-- The number of spaces that a text begins with, if they are enough to stand between cells. -/
def gapLength
    (s : List Char) :
    Nat :=
  if (s.takeWhile (· = ' ')).length < 3 then 0 else (s.takeWhile (· = ' ')).length

/-- The cells of a printed table: its lines end in newlines, and are cut wherever three or more
spaces follow one another. -/
def readBack?
    (text : String) :
    Option (List (List String)) :=
  (terminatedLines? text.toList).map
    (·.map fun line => (splitWhere gapLength line).map String.ofList)

/-- A cell that can be told from what is around it. -/
structure Legible
    (cell : List Char) :
    Prop where
  nonempty : cell ≠ []
  oneLine : '\n' ∉ cell
  begins : cell.head?.any isBlank = false
  ends : cell.getLast?.any isBlank = false
  noGap : ¬ [' ', ' ', ' '] <:+: cell

theorem noGap_iff
    {cell : List Char} :
    (∀ t ∈ cell.tails, ¬ [' ', ' ', ' '] <+: t) ↔ ¬ [' ', ' ', ' '] <:+: cell := by
  rw [List.infix_iff_prefix_suffix, not_exists]
  simp only [List.mem_tails, not_and']

instance : DecidablePred Legible :=
  fun cell => decidable_of_iff
    (cell ≠ [] ∧ '\n' ∉ cell ∧ cell.head?.any isBlank = false ∧
      cell.getLast?.any isBlank = false ∧ ∀ t ∈ cell.tails, ¬ [' ', ' ', ' '] <+: t)
    ⟨fun ⟨hne, hline, hbegins, hends, hgap⟩ => ⟨hne, hline, hbegins, hends, noGap_iff.mp hgap⟩,
      fun h => ⟨h.nonempty, h.oneLine, h.begins, h.ends, noGap_iff.mpr h.noGap⟩⟩

end Reading

section Gaps

variable {s t cell rest : List Char}

theorem gapLength_eq_zero
    (h : ¬ [' ', ' ', ' '] <+: s) :
    gapLength s = 0 := by
  refine if_pos (Nat.not_le.mp fun hthree => h ?_)
  have hspaces : s.takeWhile (· = ' ') = List.replicate (s.takeWhile (· = ' ')).length ' ' :=
    List.eq_replicate_of_mem fun c hc => by simpa using List.mem_takeWhile_imp hc
  obtain ⟨n, hn⟩ := Nat.exists_eq_add_of_le hthree
  rw [hn, ← List.replicate_append_replicate] at hspaces
  exact List.IsPrefix.trans ⟨_, hspaces.symm⟩ (List.takeWhile_prefix _)

theorem gapLength_replicate
    (n : Nat)
    (hrest : rest.head? ≠ some ' ') :
    gapLength (List.replicate (n + 3) ' ' ++ rest) = n + 3 := by
  have hnone : rest.takeWhile (· = ' ') = [] := by
    cases rest with
    | nil => rfl
    | cons c rest => simpa using hrest
  have hspaces : (List.replicate (n + 3) ' ' ++ rest).takeWhile (· = ' ') =
      List.replicate (n + 3) ' ' := by
    rw [List.takeWhile_append_of_pos (by simp), hnone, List.append_nil]
  rw [gapLength, hspaces, List.length_replicate, if_neg (by omega)]

/-- No gap begins in a cell: three spaces would be in the cell, or its last character a space. -/
theorem Legible.gapLength_eq_zero
    (h : Legible cell)
    (rest : List Char)
    (ht : t <:+ cell)
    (hne : t ≠ []) :
    gapLength (t ++ rest) = 0 := by
  refine Table.gapLength_eq_zero fun hgap => ?_
  rcases Nat.le_total 3 t.length with hlong | hshort
  · have hinside := List.prefix_of_prefix_length_le hgap (List.prefix_append t rest) hlong
    exact h.noGap (hinside.isInfix.trans ht.isInfix)
  · have hspaces := List.prefix_of_prefix_length_le (List.prefix_append t rest) hgap hshort
    obtain ⟨c, hc⟩ := Option.isSome_iff_exists.mp (List.getLast?_isSome.mpr hne)
    obtain ⟨front, rfl⟩ := ht
    have hlast : isBlank c = false := by
      simpa [List.getLast?_append, hc] using h.ends
    have hspace : c = ' ' := by
      simpa using hspaces.mem (List.mem_of_getLast? hc)
    rw [hspace] at hlast
    exact absurd hlast (by decide)

end Gaps

section Lines

variable {widths : List Nat} {cell : List Char} {line rest : List (List Char)}

theorem head?_align
    (hcell : cell ≠ []) :
    (align widths (cell :: rest)).head? = cell.head? := by
  cases rest with
  | nil => rfl
  | cons next rest =>
      rw [align, List.append_assoc, List.head?_append_of_ne_nil _ hcell]
      simp

/-- A printed line ends with its last cell. -/
theorem exists_getLast?_align
    (hne : line ≠ [])
    (hline : ∀ cell ∈ line, Legible cell) :
    ∃ c, (align widths line).getLast? = some c ∧ isBlank c = false := by
  fun_induction align widths line with
  | case1 widths => exact absurd rfl hne
  | case2 widths cell =>
      have hcell := hline cell List.mem_cons_self
      obtain ⟨c, hc⟩ := Option.isSome_iff_exists.mp (List.getLast?_isSome.mpr hcell.nonempty)
      exact ⟨c, hc, by simpa [hc] using hcell.ends⟩
  | case3 widths cell rest hrest ih =>
      have hothers : ∀ other ∈ rest, Legible other :=
        fun other hother => hline other (List.mem_cons_of_mem _ hother)
      obtain ⟨c, hc, hblank⟩ := ih hrest hothers
      exact ⟨c, by rw [List.getLast?_append, hc, Option.some_or], hblank⟩

theorem trimEnd_align
    (hne : line ≠ [])
    (hline : ∀ cell ∈ line, Legible cell) :
    trimEnd (align widths line) = align widths line := by
  obtain ⟨c, hc, hblank⟩ := exists_getLast?_align hne hline
  refine dropEndWhile_eq_self_of_getLast? fun d hd => ?_
  obtain rfl := Option.some.inj (hc.symm.trans hd)
  exact hblank

theorem newline_not_mem_align
    (hline : ∀ cell ∈ line, Legible cell) :
    '\n' ∉ align widths line := by
  fun_induction align widths line with
  | case1 widths => simp
  | case2 widths cell => exact (hline cell List.mem_cons_self).oneLine
  | case3 widths cell rest hrest ih =>
      obtain ⟨hcell, hothers⟩ := List.forall_mem_cons.mp hline
      simp [hcell.oneLine, ih hothers]

/-- A printed line is cut into its cells. -/
theorem splitWhere_align
    (hne : line ≠ [])
    (hline : ∀ cell ∈ line, Legible cell) :
    splitWhere gapLength (align widths line) = line := by
  fun_induction align widths line with
  | case1 widths => exact absurd rfl hne
  | case2 widths cell =>
      have hcell := hline cell List.mem_cons_self
      refine splitWhere_eq_singleton fun t ht htne => ?_
      simpa using hcell.gapLength_eq_zero [] ht htne
  | case3 widths cell rest hrest ih =>
      obtain ⟨hcell, hothers⟩ := List.forall_mem_cons.mp hline
      obtain ⟨next, others, rfl⟩ := List.exists_cons_of_ne_nil hrest
      have hnext := hothers next List.mem_cons_self
      have hhead : (align widths.tail (next :: others)).head? ≠ some ' ' := by
        rw [head?_align hnext.nonempty]
        intro hspace
        have hbegins := hnext.begins
        rw [hspace] at hbegins
        exact absurd hbegins (by decide)
      rw [List.append_assoc, splitWhere_append_separator, ih hrest hothers]
      · exact fun t ht htne => hcell.gapLength_eq_zero _ ht htne
      · rw [gap, gapLength_replicate _ hhead, List.length_replicate]
      · simp [gap]

end Lines

section Tables

variable {headers : List String} {rows : List (List String)} {hide : Bool}

/-- Lines of legible cells are read back from what is printed of them. -/
theorem readBack?_text
    (hshown : ∀ line ∈ shown headers rows hide,
      line ≠ [] ∧ ∀ cell ∈ line, Legible cell.toList) :
    readBack? (build headers rows hide).text = some (shown headers rows hide) := by
  have hcells : ∀ line ∈ (build headers rows hide).cells,
      line ≠ [] ∧ ∀ cell ∈ line, Legible cell := by
    rw [cells_build, shownCells]
    simpa using hshown
  have hlines : (build headers rows hide).lines =
      (build headers rows hide).cells.map (align (build headers rows hide).widths) :=
    List.map_congr_left fun line hline => trimEnd_align (hcells line hline).1 (hcells line hline).2
  have hnewline : ∀ line ∈ (build headers rows hide).lines, '\n' ∉ line := by
    rw [hlines, List.forall_mem_map]
    exact fun line hline => newline_not_mem_align (hcells line hline).2
  have hsplit : (build headers rows hide).lines.map (splitWhere gapLength) =
      (build headers rows hide).cells := by
    rw [hlines, List.map_map]
    refine (List.map_congr_left fun line hline => ?_).trans (List.map_id _)
    exact splitWhere_align (hcells line hline).1 (hcells line hline).2
  have hstrings : ((build headers rows hide).lines.map (splitWhere gapLength)).map
      (·.map String.ofList) = shown headers rows hide := by
    rw [hsplit, cells_build, shownCells, List.map_map]
    simp [Function.comp_def]
  rw [readBack?, text, String.toList_ofList, terminatedLines?_flatMap hnewline, Option.map_some,
    ← hstrings, List.map_map]
  rfl

end Tables

/-- A table whose headers and cells are all legible gives back the lines that it shows, cell for
cell. -/
theorem readBack_printed
    {headers : List String}
    {rows : List (List String)}
    {hide : Bool}
    (hheaders : hide = false → headers ≠ [] ∧ ∀ header ∈ headers, Legible (upper header).toList)
    (hrows : ∀ row ∈ rows, row ≠ [] ∧ ∀ cell ∈ row, Legible cell.toList) :
    ∃ text, printTo (.ok (build headers rows hide)) (.ofCapacity none) =
        (⟨none, text.toUTF8.toList⟩, none) ∧
      readBack? text = some (shown headers rows hide) := by
  refine ⟨_, printTo_unlimited _, readBack?_text ?_⟩
  cases hide with
  | true => exact hrows
  | false =>
      refine List.forall_mem_cons.mpr ⟨?_, hrows⟩
      simpa using hheaders rfl

/-- Rows of different lengths, with spaces in cells and a header that grows in upper case. -/
theorem readBack_printed_ragged :
    (["Stra\u00DFe", "Server name"] ≠ [] ∧
      ∀ header ∈ ["Stra\u00DFe", "Server name"], Legible (upper header).toList) ∧
    (∀ row ∈ [["a", "b  c", "d"], ["longer than all"]],
      row ≠ [] ∧ ∀ cell ∈ row, Legible cell.toList) ∧
    ∃ text, printTo (.ok (build ["Stra\u00DFe", "Server name"]
        [["a", "b  c", "d"], ["longer than all"]] false)) (.ofCapacity none) =
        (⟨none, text.toUTF8.toList⟩, none) ∧
      readBack? text =
        some [["STRASSE", "SERVER NAME"], ["a", "b  c", "d"], ["longer than all"]] := by
  have hfirst : upper "Stra\u00DFe" = "STRASSE" := by
    decide
  have hsecond : upper "Server name" = "SERVER NAME" := by
    decide
  have hheaders : ["Stra\u00DFe", "Server name"] ≠ [] ∧
      ∀ header ∈ ["Stra\u00DFe", "Server name"], Legible (upper header).toList := by
    simp only [List.forall_mem_cons, hfirst, hsecond]
    decide
  have hrows : ∀ row ∈ [["a", "b  c", "d"], ["longer than all"]],
      row ≠ [] ∧ ∀ cell ∈ row, Legible cell.toList := by
    decide
  obtain ⟨text, hprinted, hread⟩ := readBack_printed (fun _ => hheaders) hrows
  refine ⟨hheaders, hrows, text, hprinted, hread.trans ?_⟩
  simp only [shown, List.map_cons, hfirst, hsecond]
  rfl

end Table
end ServingAdmin
