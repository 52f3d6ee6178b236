import ServingAdmin.Domain.Selector
import ServingAdmin.Proofs.Text.Separator
import ServingAdmin.Proofs.Text.Split

/-!
# The entries of a selector block

The summary of a block has one entry for each of its lines, from the second on, in which there is a
colon or an equals sign, and nothing for the others.  No entry has a space in it, and that is what
separators end in, so the entries are got back by cutting a summary at its separators, whatever
else stands in the lines (`summary_readsBack`).
-/

namespace ServingAdmin
namespace Selector

open Text

/-- A line that a block of entries begins with. -/
def IsHeading
    (line : List Char) :
    Prop :=
  "selector:".toList <+: line ∨ "selector=".toList <+: line

/-- A line that gives an entry. -/
def IsEntry
    (line : List Char) :
    Prop :=
  ':' ∈ line ∨ '=' ∈ line

instance : DecidablePred IsEntry :=
  fun line => inferInstanceAs (Decidable (':' ∈ line ∨ '=' ∈ line))

/-- The entry that a line gives: the line without spaces, and with an equals sign for every
colon. -/
def entryOf
    (line : List Char) :
    List Char :=
  (line.filter (· ≠ ' ')).map fun c => if c = ':' then '=' else c

/-- The entries that lines give. -/
def entriesOf
    (lines : List (List Char)) :
    List (List Char) :=
  (lines.filter (IsEntry ·)).map entryOf

section Lines

variable {line : List Char}

theorem contains_normalized_iff :
    (normalized line).contains '=' = true ↔ IsEntry line := by
  rw [List.contains_iff_mem, normalized, List.mem_map, IsEntry]
  constructor
  · rintro ⟨c, hc, hequals⟩
    split at hequals
    · rename_i hcolon
      exact Or.inl (hcolon ▸ hc)
    · exact Or.inr (hequals ▸ hc)
  · rintro (hc | hc)
    · exact ⟨':', hc, rfl⟩
    · exact ⟨'=', hc, rfl⟩

theorem isPrefixOf_normalized_iff :
    heading.isPrefixOf (normalized line) = true ↔ IsHeading line := by
  rw [List.isPrefixOf_iff_prefix]
  constructor
  · rintro ⟨more, hline⟩
    obtain ⟨front, back, rfl, hfront, -⟩ := List.append_eq_map_iff.mp hline
    obtain ⟨c, rfl, hc⟩ :
        ∃ c, front = "selector".toList ++ [c] ∧ (c = ':' ∨ c = '=') := by
      simpa [heading, List.map_eq_cons_iff, ite_eq_iff, or_iff_not_imp_left] using hfront
    rcases hc with rfl | rfl
    · exact Or.inl (List.prefix_append _ _)
    · exact Or.inr (List.prefix_append _ _)
  · rintro (⟨more, rfl⟩ | ⟨more, rfl⟩)
    · exact ⟨normalized more, by simp [normalized, heading]⟩
    · exact ⟨normalized more, by simp [normalized, heading]⟩

theorem filter_normalized
    (line : List Char) :
    (normalized line).filter (· ≠ ' ') = entryOf line := by
  rw [normalized, List.filter_map, entryOf]
  refine congrArg _ (List.filter_congr fun c _ => ?_)
  by_cases hcolon : c = ':'
  · simp [hcolon]
  · simp [hcolon]

/-- An entry has an equals sign in it, and no space. -/
theorem mem_entryOf
    (hline : IsEntry line) :
    '=' ∈ entryOf line ∧ ' ' ∉ entryOf line := by
  rw [← filter_normalized]
  have hequals := List.contains_iff_mem.mp (contains_normalized_iff.mpr hline)
  exact ⟨List.mem_filter.mpr ⟨hequals, by decide⟩, by simp⟩

end Lines

section Blocks

variable {s first : List Char} {later : List (List Char)}

/-- A block gives the entries of its later lines if the first is a heading, and none otherwise. -/
theorem entries_of_splitAt
    (hlines : splitAt '\n' (trim s) = first :: later) :
    (IsHeading first → entries s = entriesOf later) ∧ (¬ IsHeading first → entries s = []) := by
  have hnormalized : lines s = normalized first :: later.map normalized := by
    rw [lines, normalized, splitAt_map, hlines]
    · rfl
    · intro c
      by_cases hcolon : c = ':'
      · simp [hcolon]
      · simp [hcolon]
  have hlater : ((later.map normalized).filter (·.contains '=')).map (·.filter (· ≠ ' ')) =
      entriesOf later := by
    rw [List.filter_map, List.map_map, entriesOf]
    refine congr (congrArg _ (funext filter_normalized)) (List.filter_congr fun line _ => ?_)
    rw [Bool.eq_iff_iff, decide_eq_true_iff]
    exact contains_normalized_iff
  rw [entries, hnormalized]
  exact ⟨fun hfirst => (if_pos (isPrefixOf_normalized_iff.mpr hfirst)).trans hlater,
    fun hfirst => if_neg (isPrefixOf_normalized_iff.not.mpr hfirst)⟩

theorem mem_entriesOf
    {entry : List Char}
    (hentry : entry ∈ entriesOf later) :
    entry ≠ [] ∧ ' ' ∉ entry := by
  obtain ⟨line, hline, rfl⟩ := List.mem_map.mp hentry
  have hmem := mem_entryOf (of_decide_eq_true (List.mem_filter.mp hline).2)
  exact ⟨List.ne_nil_of_mem hmem.1, hmem.2⟩

theorem entriesOf_eq_nil_iff :
    entriesOf later = [] ↔ ∀ line ∈ later, ¬ IsEntry line := by
  simp [entriesOf]

end Blocks

section Separators

variable {es : List (List Char)}

theorem prefix_intercalate_cons
    (first : List Char) :
    first <+: separator.intercalate (first :: es) := by
  rw [intercalate_eq_append]
  exact List.prefix_append _ _

theorem suffix_intercalate_concat
    (last : List Char) :
    last <:+ separator.intercalate (es ++ [last]) := by
  cases es with
  | nil => simp
  | cons first es =>
      rw [List.cons_append, intercalate_eq_append, List.flatMap_append]
      simp only [List.flatMap_cons, List.flatMap_nil, List.append_nil, ← List.append_assoc]
      exact List.suffix_append _ _

/-- Entries are got back by cutting at the separators between them. -/
theorem splitAtText_entries
    (hne : es ≠ [])
    (hes : ∀ entry ∈ es, entry ≠ [] ∧ ' ' ∉ entry) :
    splitAtText separator (separator.intercalate es) = es :=
  splitAtText_intercalate (by decide) hne fun entry hentry => (hes entry hentry).2

/-- No separator and no space stands in front of the first entry. -/
theorem not_prefix_entries
    (hes : ∀ entry ∈ es, entry ≠ [] ∧ ' ' ∉ entry) :
    ¬ separator <+: separator.intercalate es ∧ ¬ [' '] <+: separator.intercalate es := by
  cases es with
  | nil => decide
  | cons first es =>
      obtain ⟨hne, hspace⟩ := hes first List.mem_cons_self
      constructor
      · rintro ⟨more, hmore⟩
        -- in front of a separator there would be an empty entry
        have hsplit := splitAtText_entries (List.cons_ne_nil first es) hes
        rw [← hmore, splitAtText_separator_append (by decide)] at hsplit
        exact hne (List.cons.inj hsplit).1.symm
      · intro hfront
        have hfirst := List.prefix_of_prefix_length_le hfront (prefix_intercalate_cons first)
          (List.length_pos_of_ne_nil hne)
        exact hspace (hfirst.mem List.mem_cons_self)

/-- No separator and no space stands behind the last entry. -/
theorem not_suffix_entries
    (hes : ∀ entry ∈ es, entry ≠ [] ∧ ' ' ∉ entry) :
    ¬ separator <:+ separator.intercalate es ∧ ¬ [' '] <:+ separator.intercalate es := by
  have hspace : ¬ [' '] <:+ separator.intercalate es := by
    rcases List.eq_nil_or_concat es with rfl | ⟨front, last, rfl⟩
    · decide
    · obtain ⟨hne, hspace⟩ := hes last (by simp)
      intro hback
      rw [List.concat_eq_append] at hback
      have hlast := List.suffix_of_suffix_length_le hback (suffix_intercalate_concat last)
        (List.length_pos_of_ne_nil hne)
      exact hspace (hlast.mem List.mem_cons_self)
  exact ⟨fun hback => hspace (List.IsSuffix.trans ⟨[';'], rfl⟩ hback), hspace⟩

theorem intercalate_eq_nil_iff
    (hes : ∀ entry ∈ es, entry ≠ [] ∧ ' ' ∉ entry) :
    separator.intercalate es = [] ↔ es = [] := by
  refine ⟨fun hnil => ?_, fun hnil => hnil ▸ rfl⟩
  cases es with
  | nil => rfl
  | cons first es =>
      have hfront : first <+: separator.intercalate (first :: es) := prefix_intercalate_cons first
      rw [hnil, List.prefix_nil] at hfront
      exact absurd hfront (hes first List.mem_cons_self).1

end Separators

/-- The summary of a text whose first line is no heading is empty, and that of a block is empty
exactly if none of its later lines is an entry.  Otherwise its pieces between separators are the
entries of these lines, one for each and in their order, and none of them is empty.  No summary
begins or ends with a separator or a space. -/
theorem summary_readsBack
    (s : String) :
    ∃ first later, splitAt '\n' (trim s.toList) = first :: later ∧
      (¬ IsHeading first → summary s = "") ∧
      (IsHeading first →
        (summary s = "" ↔ ∀ line ∈ later, ¬ IsEntry line) ∧
        ((∃ line ∈ later, IsEntry line) →
          splitAtText separator (summary s).toList = (later.filter (IsEntry ·)).map entryOf ∧
            [] ∉ splitAtText separator (summary s).toList)) ∧
      ¬ separator <+: (summary s).toList ∧ ¬ [' '] <+: (summary s).toList ∧
      ¬ separator <:+ (summary s).toList ∧ ¬ [' '] <:+ (summary s).toList := by
  obtain ⟨first, later, hlines⟩ :=
    List.exists_cons_of_ne_nil (splitAt_ne_nil '\n' (trim s.toList))
  obtain ⟨hheading, hother⟩ := entries_of_splitAt hlines
  have hes : ∀ entry ∈ entries s.toList, entry ≠ [] ∧ ' ' ∉ entry := by
    by_cases hfirst : IsHeading first
    · exact fun entry hentry => mem_entriesOf (hheading hfirst ▸ hentry)
    · simp [hother hfirst]
  have hempty : summary s = "" ↔ entries s.toList = [] := by
    rw [summary, ← String.toList_inj, String.toList_ofList]
    exact intercalate_eq_nil_iff hes
  obtain ⟨hfront, hspace⟩ := not_prefix_entries hes
  obtain ⟨hback, hspace'⟩ := not_suffix_entries hes
  have htext : (summary s).toList = separator.intercalate (entries s.toList) :=
    String.toList_ofList
  rw [← htext] at hfront hspace hback hspace'
  refine ⟨first, later, hlines, fun hfirst => hempty.mpr (hother hfirst), fun hfirst => ⟨?_, ?_⟩,
    hfront, hspace, hback, hspace'⟩
  · rw [hempty, hheading hfirst, entriesOf_eq_nil_iff]
  · rintro ⟨line, hline, hentry⟩
    have hne : entries s.toList ≠ [] := by
      rw [hheading hfirst]
      exact fun hnil => entriesOf_eq_nil_iff.mp hnil line hline hentry
    have hsplit : splitAtText separator (summary s).toList = entriesOf later := by
      rw [htext, splitAtText_entries hne hes, hheading hfirst]
    exact ⟨hsplit, fun hnil => (mem_entriesOf (hsplit ▸ hnil)).1 rfl⟩

/-- A semicolon at the end of an entry is no part of the separator behind it. -/
example :
    splitAtText separator
        (summary "selector:\n  app: web;\n  ; none\n  tier = front; zone: a").toList =
      ["app=web;".toList, "tier=front;zone=a".toList] := by
  cbv

end Selector
end ServingAdmin
