import ServingAdmin.Proofs.Text.Blank
import ServingAdmin.Proofs.Text.Split

/-!
# The lines of a text

Lines are the pieces between newlines, or behind all of them is a newline (`terminatedLines?`).  A
newline is blank, so trimming a text takes away the blank lines at its end, and of the last line
that is not blank the blanks at its end (`splitAt_trim`).
-/

namespace ServingAdmin
namespace Text

section Trimming

/-- The blanks that a line ends in. -/
def trailing
    (line : List Char) :
    List Char :=
  line.drop (trimEnd line).length

theorem trimEnd_append_trailing
    (line : List Char) :
    trimEnd line ++ trailing line = line ∧ Blank (trailing line) := by
  obtain ⟨blanks, hline, hblanks⟩ := exists_dropEndWhile_append (p := isBlank) line
  have htrailing : trailing line = blanks :=
    (congrArg (List.drop (trimEnd line).length) hline).trans List.drop_left
  rw [htrailing]
  exact ⟨hline.symm, hblanks⟩

variable {s : List Char} {front back : List (List Char)} {last : List Char}

/-- Trimming takes away the lines behind the last that is not blank, and the blanks that this line
ends in. -/
theorem splitAt_trim
    (hs : splitAt '\n' s = front ++ last :: back)
    (hfront : s.dropWhile isBlank = s)
    (hlast : ¬ Blank last)
    (hback : ∀ line ∈ back, Blank line) :
    splitAt '\n' (trim s) = front ++ [trimEnd last] := by
  have hnone : ∀ line ∈ front ++ last :: back, '\n' ∉ line :=
    fun line hline => not_mem_of_mem_splitAt (hs ▸ hline)
  have hlines : ∀ line ∈ front ++ [trimEnd last], '\n' ∉ line := by
    intro line hline hmem
    rcases List.mem_append.mp hline with hline | hline
    · exact hnone line (List.mem_append_left _ hline) hmem
    · rw [List.mem_singleton.mp hline] at hmem
      refine hnone last (by simp) ?_
      rw [← (trimEnd_append_trailing last).1]
      exact List.mem_append_left _ hmem
  have hblank : ∀ c ∈ back.flatMap ('\n' :: ·), isBlank c = true := by
    intro c hc
    obtain ⟨line, hline, hmem⟩ := List.mem_flatMap.mp hc
    rcases List.mem_cons.mp hmem with rfl | hmem
    · decide
    · exact hback line hline c hmem
  have htrim : trim s = ['\n'].intercalate (front ++ [trimEnd last]) := by
    rw [trim, hfront, ← intercalate_splitAt '\n' s, hs, intercalate_append_cons,
      intercalate_append_cons, trimEnd, ← List.append_assoc, dropEndWhile_append _ hblank]
    simpa [trimEnd] using dropEndWhile_append_of_ne_nil _ (trimEnd_ne_nil hlast)
  rw [htrim, splitAt_intercalate (by simp) hlines]

end Trimming

section Termination

/-- The lines of a text, each of which ends in a newline.  There are none of a text that has
something behind its last newline. -/
def terminatedLines?
    (s : List Char) :
    Option (List (List Char)) :=
  if (splitAt '\n' s).getLast? = some [] then some (splitAt '\n' s).dropLast else none

theorem terminatedLines?_flatMap
    {lines : List (List Char)}
    (h : ∀ line ∈ lines, '\n' ∉ line) :
    terminatedLines? (lines.flatMap (· ++ ['\n'])) = some lines := by
  have hlines : ∀ line ∈ lines ++ [[]], '\n' ∉ line :=
    List.forall_mem_append.mpr ⟨h, by simp⟩
  have hsplit := splitAt_intercalate (by simp) hlines
  rw [intercalate_append_cons] at hsplit
  simp only [List.flatMap_nil, List.append_nil] at hsplit
  rw [terminatedLines?, hsplit, if_pos (by simp), List.dropLast_concat]

/-- A newline in a line ends it, and makes another line of what is behind it. -/
theorem flatMap_splitAt_newline
    (line : List Char) :
    (splitAt '\n' line).flatMap (· ++ ['\n']) = line ++ ['\n'] := by
  obtain ⟨front, last, hsplit⟩ := List.eq_nil_or_concat (splitAt '\n' line) |>.resolve_left
    (splitAt_ne_nil '\n' line)
  have hline := intercalate_splitAt '\n' line
  rw [hsplit, List.concat_eq_append, intercalate_append_cons] at hline
  rw [hsplit, List.concat_eq_append, ← hline]
  simp

/-- Texts that each have a newline behind them are as many lines as they are cut into by the
newlines in them. -/
theorem terminatedLines?_flatMap_splitAt
    (texts : List (List Char)) :
    terminatedLines? (texts.flatMap (· ++ ['\n'])) = some (texts.flatMap (splitAt '\n')) := by
  have hlines : ∀ line ∈ texts.flatMap (splitAt '\n'), '\n' ∉ line := by
    intro line hline
    obtain ⟨text, -, hmem⟩ := List.mem_flatMap.mp hline
    exact not_mem_of_mem_splitAt hmem
  rw [← terminatedLines?_flatMap hlines, List.flatMap_assoc]
  simp only [flatMap_splitAt_newline]

end Termination

end Text
end ServingAdmin
