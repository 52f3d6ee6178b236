import ServingAdmin.Proofs.Domain.Entries
import ServingAdmin.Proofs.Text.Lines

/-!
# Lines without an entry

A line in which there is neither a colon nor an equals sign gives no entry, and does nothing to the
entries of other lines, with one exception.  A block is trimmed as a whole, so the last line that is
not blank loses all white space at its end, and each line before it only its spaces.  If this last
line gives an entry, then a line that is put behind it and is not blank uncovers the white space at
its end.  So a line can be put in or left out exactly if it uncovers none (`summary_insert_iff`).
-/

namespace ServingAdmin
namespace Selector

open Text

/-- The first line of the blocks in question. -/
def selectorLine : List Char := "selector:".toList

/-- A line uncovers white space between lines before and behind it.  It is not blank, and only blank
lines are behind it.  The last line before it that is not blank gives an entry, and ends in other
white space than spaces. -/
structure Uncovers
    (before : List (List Char))
    (line : List Char)
    (after : List (List Char)) :
    Prop where
  notBlank : ¬ Blank line
  blankAfter : ∀ other ∈ after, Blank other
  endsWide : ∃ front last back, before = front ++ last :: back ∧ (∀ other ∈ back, Blank other) ∧
    IsEntry last ∧ ∃ c ∈ trailing last, c ≠ ' '

section Entries

variable {line : List Char} {later : List (List Char)}

theorem IsEntry.not_blank
    (h : IsEntry line) :
    ¬ Blank line := by
  intro hblank
  rcases h with hc | hc
  · exact absurd (hblank _ hc) (by decide)
  · exact absurd (hblank _ hc) (by decide)

theorem entriesOf_append
    (front back : List (List Char)) :
    entriesOf (front ++ back) = entriesOf front ++ entriesOf back := by
  simp [entriesOf]

theorem entriesOf_of_blank
    (h : ∀ line ∈ later, Blank line) :
    entriesOf later = [] :=
  entriesOf_eq_nil_iff.mpr fun line hline hentry => hentry.not_blank (h line hline)

theorem entriesOf_cons_of_not_isEntry
    (hline : ¬ IsEntry line) :
    entriesOf (line :: later) = entriesOf later := by
  simp [entriesOf, hline]

theorem trimEnd_isEntry_iff
    (line : List Char) :
    IsEntry (trimEnd line) ↔ IsEntry line := by
  obtain ⟨happend, hblank⟩ := trimEnd_append_trailing line
  have hnone : ':' ∉ trailing line ∧ '=' ∉ trailing line :=
    not_or.mp fun hentry => IsEntry.not_blank hentry hblank
  conv_rhs => rw [← happend]
  simp [IsEntry, hnone]

theorem entriesOf_singleton
    (hline : IsEntry line) :
    entriesOf [line] = [entryOf line] := by
  simp [entriesOf, hline]

/-- The entry of a line has in it what is no space of the blanks at the end. -/
theorem entryOf_trailing
    (line : List Char) :
    entryOf line = entryOf (trimEnd line) ++ entryOf (trailing line) := by
  conv_lhs => rw [← (trimEnd_append_trailing line).1]
  simp [entryOf]

theorem entryOf_eq_nil_iff :
    entryOf line = [] ↔ ∀ c ∈ line, c = ' ' := by
  simp [entryOf]

theorem entriesOf_trimEnd
    (h : IsEntry line → ∀ c ∈ trailing line, c = ' ') :
    entriesOf [line] = entriesOf [trimEnd line] := by
  by_cases hline : IsEntry line
  · rw [entriesOf_singleton hline, entriesOf_singleton ((trimEnd_isEntry_iff line).mpr hline),
      entryOf_trailing line, entryOf_eq_nil_iff.mpr (h hline), List.append_nil]
  · rw [entriesOf_cons_of_not_isEntry hline,
      entriesOf_cons_of_not_isEntry ((trimEnd_isEntry_iff line).not.mpr hline)]

end Entries

section Blocks

variable {s s' : String} {line : List Char} {before front back after later : List (List Char)}

theorem entries_of_trim
    (hs : splitAt '\n' (trim s.toList) = selectorLine :: later) :
    entries s.toList = entriesOf later :=
  (entries_of_splitAt hs).1 (Or.inl List.prefix_rfl)

theorem dropWhile_of_selectorLine
    (hs : splitAt '\n' s.toList = selectorLine :: later) :
    s.toList.dropWhile isBlank = s.toList := by
  rw [← intercalate_splitAt '\n' s.toList, hs, intercalate_cons]
  rfl

/-- A block with nothing but blank lines below its first has no entries. -/
theorem entries_of_blank
    (hs : splitAt '\n' s.toList = selectorLine :: later)
    (hlater : ∀ other ∈ later, Blank other) :
    entries s.toList = [] := by
  have hnot : ¬ Blank selectorLine := by
    decide
  have htrim : splitAt '\n' (trim s.toList) = [] ++ [trimEnd selectorLine] :=
    splitAt_trim hs (dropWhile_of_selectorLine hs) hnot hlater
  exact entries_of_trim htrim

/-- The blanks at the end of the last line that is not blank are not seen. -/
theorem entries_of_last
    (hs : splitAt '\n' s.toList = selectorLine :: (front ++ line :: back))
    (hline : ¬ Blank line)
    (hback : ∀ other ∈ back, Blank other) :
    entries s.toList = entriesOf front ++ entriesOf [trimEnd line] := by
  have htrim : splitAt '\n' (trim s.toList) = selectorLine :: front ++ [trimEnd line] :=
    splitAt_trim hs (dropWhile_of_selectorLine hs) hline hback
  rw [List.cons_append] at htrim
  rw [entries_of_trim htrim, entriesOf_append]

theorem exists_last
    (later : List (List Char)) :
    (∀ other ∈ later, Blank other) ∨
      ∃ front last back, later = front ++ last :: back ∧ ¬ Blank last ∧
        ∀ other ∈ back, Blank other := by
  induction later with
  | nil => exact Or.inl (by simp)
  | cons line later ih =>
      rcases ih with hblank | ⟨front, last, back, rfl, hlast, hback⟩
      · by_cases hline : Blank line
        · exact Or.inl (List.forall_mem_cons.mpr ⟨hline, hblank⟩)
        · exact Or.inr ⟨[], line, later, rfl, hline, hblank⟩
      · exact Or.inr ⟨line :: front, last, back, rfl, hlast, hback⟩

/-- A line in front of one that is not blank leaves no trace. -/
theorem entries_insert_of_visibleAfter
    (hs : splitAt '\n' s.toList = selectorLine :: (before ++ after))
    (hs' : splitAt '\n' s'.toList = selectorLine :: (before ++ line :: after))
    (hline : ¬ IsEntry line)
    (hafter : ¬ ∀ other ∈ after, Blank other) :
    entries s'.toList = entries s.toList := by
  obtain ⟨front, last, back, rfl, hlast, hback⟩ := (exists_last after).resolve_left hafter
  have hfront : before ++ line :: (front ++ last :: back) =
      (before ++ line :: front) ++ last :: back := by
    simp
  rw [← List.append_assoc] at hs
  rw [hfront] at hs'
  rw [entries_of_last hs hlast hback, entries_of_last hs' hlast hback, entriesOf_append,
    entriesOf_append, entriesOf_cons_of_not_isEntry hline]

/-- A blank line between blank lines leaves no trace. -/
theorem entries_insert_of_blank
    (hs : splitAt '\n' s.toList = selectorLine :: (before ++ after))
    (hs' : splitAt '\n' s'.toList = selectorLine :: (before ++ line :: after))
    (hline : Blank line)
    (hafter : ∀ other ∈ after, Blank other) :
    entries s'.toList = entries s.toList := by
  have hafter' : ∀ other ∈ line :: after, Blank other :=
    List.forall_mem_cons.mpr ⟨hline, hafter⟩
  rcases exists_last before with hblank | ⟨front, last, back, rfl, hlast, hback⟩
  · rw [entries_of_blank hs (List.forall_mem_append.mpr ⟨hblank, hafter⟩),
      entries_of_blank hs' (List.forall_mem_append.mpr ⟨hblank, hafter'⟩)]
  · rw [List.append_assoc, List.cons_append] at hs hs'
    rw [entries_of_last hs hlast (List.forall_mem_append.mpr ⟨hback, hafter⟩),
      entries_of_last hs' hlast (List.forall_mem_append.mpr ⟨hback, hafter'⟩)]

/-- Lines in front of one that is not blank and gives no entry give their entries untrimmed. -/
theorem entries_of_visible
    (hs : splitAt '\n' s.toList = selectorLine :: (before ++ line :: after))
    (hline : ¬ IsEntry line)
    (hvisible : ¬ Blank line)
    (hafter : ∀ other ∈ after, Blank other) :
    entries s.toList = entriesOf before := by
  have hnone : entriesOf [trimEnd line] = [] :=
    entriesOf_eq_nil_iff.mpr (by simpa [trimEnd_isEntry_iff] using hline)
  rw [entries_of_last hs hvisible hafter, hnone, List.append_nil]

/-- The lines in front of the blank ones at the end give the entries of a block, the last of them
without the blanks it ends in. -/
theorem entries_of_blankAfter
    (hs : splitAt '\n' s.toList = selectorLine :: (front ++ line :: back ++ after))
    (hline : ¬ Blank line)
    (hback : ∀ other ∈ back, Blank other)
    (hafter : ∀ other ∈ after, Blank other) :
    entries s.toList = entriesOf front ++ entriesOf [trimEnd line] := by
  rw [List.append_assoc, List.cons_append] at hs
  exact entries_of_last hs hline (List.forall_mem_append.mpr ⟨hback, hafter⟩)

theorem entriesOf_append_cons_of_blank
    (hback : ∀ other ∈ back, Blank other) :
    entriesOf (front ++ line :: back) = entriesOf front ++ entriesOf [line] := by
  rw [entriesOf_append, ← List.singleton_append, entriesOf_append, entriesOf_of_blank hback,
    List.append_nil]

/-- A line that uncovers no white space leaves no trace. -/
theorem entries_insert
    (hs : splitAt '\n' s.toList = selectorLine :: (before ++ after))
    (hs' : splitAt '\n' s'.toList = selectorLine :: (before ++ line :: after))
    (hline : ¬ IsEntry line)
    (hnot : ¬ Uncovers before line after) :
    entries s'.toList = entries s.toList := by
  by_cases hafter : ∀ other ∈ after, Blank other
  · by_cases hblank : Blank line
    · exact entries_insert_of_blank hs hs' hblank hafter
    · rw [entries_of_visible hs' hline hblank hafter]
      rcases exists_last before with hbefore | ⟨front, last, back, rfl, hlast, hback⟩
      · rw [entriesOf_of_blank hbefore,
          entries_of_blank hs (List.forall_mem_append.mpr ⟨hbefore, hafter⟩)]
      · rw [entries_of_blankAfter hs hlast hback hafter, entriesOf_append_cons_of_blank hback]
        refine congrArg _ (entriesOf_trimEnd fun hentry c hc => ?_)
        by_contra hne
        exact hnot ⟨hblank, hafter, front, last, back, rfl, hback, hentry, c, hc, hne⟩
  · exact entries_insert_of_visibleAfter hs hs' hline hafter

/-- A line that uncovers white space adds it to the last entry. -/
theorem summary_insert
    (hs : splitAt '\n' s.toList = selectorLine :: (before ++ after))
    (hs' : splitAt '\n' s'.toList = selectorLine :: (before ++ line :: after))
    (hline : ¬ IsEntry line)
    (h : Uncovers before line after) :
    ∃ white, white ≠ [] ∧ (summary s').toList = (summary s).toList ++ white := by
  obtain ⟨hblank, hafter, front, last, back, rfl, hback, hentry, c, hc, hne⟩ := h
  refine ⟨entryOf (trailing last), fun hnil => hne (entryOf_eq_nil_iff.mp hnil c hc), ?_⟩
  have hentries := entries_of_blankAfter hs hentry.not_blank hback hafter
  have hentries' := entries_of_visible hs' hline hblank hafter
  rw [entriesOf_append_cons_of_blank hback] at hentries'
  rw [entriesOf_singleton ((trimEnd_isEntry_iff last).mpr hentry)] at hentries
  rw [entriesOf_singleton hentry, entryOf_trailing] at hentries'
  rw [summary, summary, String.toList_ofList, String.toList_ofList, hentries, hentries']
  cases entriesOf front with
  | nil => simp
  | cons first others => simp [intercalate_eq_append]

end Blocks

/-- A line without an entry can be put into a block, at any place below the first line, without a
change to the summary, unless it uncovers white space there, and then the summary changes. -/
theorem summary_insert_iff
    {s s' : String}
    {before after : List (List Char)}
    {line : List Char}
    (hs : splitAt '\n' s.toList = selectorLine :: (before ++ after))
    (hs' : splitAt '\n' s'.toList = selectorLine :: (before ++ line :: after))
    (hline : ¬ IsEntry line) :
    summary s' = summary s ↔ ¬ Uncovers before line after := by
  constructor
  · intro hsame h
    obtain ⟨white, hne, hsummary⟩ := summary_insert hs hs' hline h
    rw [hsame] at hsummary
    exact hne (List.self_eq_append_right.mp hsummary)
  · intro hnot
    rw [summary, summary, entries_insert hs hs' hline hnot]

/-- The tab at the end of this block stays out of sight, since the line is put in front of it. -/
theorem summary_insert_iff_betweenEntries :
    ∃ before after, ∃ line : List Char,
      splitAt '\n' "selector:\n  app: web\n  tier: front\t\n".toList =
        selectorLine :: (before ++ after) ∧
      splitAt '\n' "selector:\n  app: web\n  ready\n  tier: front\t\n".toList =
        selectorLine :: (before ++ line :: after) ∧
      ¬ IsEntry line ∧
      summary "selector:\n  app: web\n  ready\n  tier: front\t\n" =
        summary "selector:\n  app: web\n  tier: front\t\n" := by
  have hs : splitAt '\n' "selector:\n  app: web\n  tier: front\t\n".toList =
      selectorLine :: (["  app: web".toList] ++ ["  tier: front\t".toList, []]) := by
    decide
  have hs' : splitAt '\n' "selector:\n  app: web\n  ready\n  tier: front\t\n".toList =
      selectorLine :: (["  app: web".toList] ++ "  ready".toList ::
        ["  tier: front\t".toList, []]) := by
    decide
  have hline : ¬ IsEntry "  ready".toList := by
    decide
  refine ⟨_, _, _, hs, hs', hline, (summary_insert_iff hs hs' hline).mpr fun h => ?_⟩
  exact absurd (h.blankAfter _ List.mem_cons_self) (by decide)

/-- A tab at the end of a block is not seen, and with a line behind it that gives no entry it is. -/
theorem summary_lineBehindTab :
    splitAt '\n' "selector:\n  app: web\t".toList =
        selectorLine :: (["  app: web\t".toList] ++ []) ∧
      splitAt '\n' "selector:\n  app: web\t\n  ready".toList =
        selectorLine :: (["  app: web\t".toList] ++ "  ready".toList :: []) ∧
      ¬ IsEntry "  ready".toList ∧
      summary "selector:\n  app: web\t" = "app=web" ∧
      summary "selector:\n  app: web\t\n  ready" = "app=web\t" := by
  decide +kernel

end Selector
end ServingAdmin
