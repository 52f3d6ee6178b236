import ServingAdmin.Proofs.Registry.Passwords
import ServingAdmin.Proofs.Registry.Rows
import ServingAdmin.Proofs.Table.Newlines

/-!
# The lines of the list of registries

Each auth entry of a secret that a query covers is a row, and is printed on a line of its own if
nothing but white space stands behind any newline in the cells of the row (`Row.OneLine`).  There
are exactly as many lines as entries, and one for the headers, if all rows are of this kind
(`length_printedLines_iff`), so a name or a server with a newline in it can make up further rows.
-/

namespace ServingAdmin
namespace Registry

open Table (furtherLines)

/-- The number of auth entries of the secrets that a query covers. -/
def coveredEntries
    (q : Query)
    (decoded : List Secret) :
    Nat :=
  ((decoded.filter q.covers).map (·.config.auths.entries.length)).sum

/-- In the cells of a row, one after the other, only white space stands behind a newline. -/
def Row.OneLine
    (withNamespace : Bool)
    (r : Row) :
    Prop :=
  '\n' ∉ Text.trimEnd ((r.cells withNamespace).map String.toList).flatten

/-- Each covered entry is a row. -/
theorem length_selectedRows
    (decoded : List Secret)
    (q : Query) :
    (selectedRows decoded q).length = coveredEntries q decoded := by
  rw [(selectedRows_perm decoded q).length_eq, List.length_flatMap, coveredEntries]
  simp only [Secret.rows, List.length_map]

theorem mem_selectedRows
    {decoded : List Secret}
    {q : Query}
    {r : Row} :
    r ∈ selectedRows decoded q ↔ ∃ s ∈ decoded, q.covers s = true ∧ r ∈ s.rows := by
  rw [(selectedRows_perm decoded q).mem_iff, List.mem_flatMap]
  simp only [List.mem_filter, and_assoc]

/-- The headers of the list of registries. -/
def headers
    (withNamespace : Bool) :
    List String :=
  (if withNamespace then ["Namespace"] else []) ++
    ["ServiceAccount", "Secret", "UserName", "Server", "Email"]

theorem furtherLines_headers
    (withNamespace : Bool) :
    furtherLines (((headers withNamespace).map Text.upper).map String.toList) = 0 := by
  cases withNamespace <;> decide

/-- The table of what a query selects of decoded secrets. -/
def selectedTable
    (decoded : List Secret)
    (q : Query)
    (noHeaders : Bool) :
    Table :=
  ⟨(headers q.allNamespaces).map Text.upper,
    (selectedRows decoded q).map (Row.cells q.allNamespaces), noHeaders⟩

theorem printTo_listing
    {secrets : List Cluster.Secret}
    {decoded : List Secret}
    (h : List.Forall₂ ReducesTo secrets decoded)
    (q : Query)
    (noHeaders : Bool) :
    Table.printTo (listing secrets q noHeaders) (.ofCapacity none) =
      (⟨none, (selectedTable decoded q noHeaders).text.toUTF8.toList⟩, none) := by
  rw [listing, rows_of_decodeAll (decodeAll_of_reduced h), ← Table.printTo_unlimited]
  rfl

/-- A line for each covered entry, one for the headers, and those that newlines in the cells of rows
make up. -/
theorem length_lines_selectedTable
    (decoded : List Secret)
    (q : Query)
    (noHeaders : Bool) :
    ∃ lines, Text.terminatedLines? (selectedTable decoded q noHeaders).text.toList = some lines ∧
      lines.length = (if noHeaders then 0 else 1) + coveredEntries q decoded +
        ((selectedRows decoded q).map fun r =>
          furtherLines ((r.cells q.allNamespaces).map String.toList)).sum := by
  obtain ⟨lines, hlines, hlength⟩ := Table.length_printedLines (selectedTable decoded q noHeaders)
  refine ⟨lines, hlines, hlength.trans ?_⟩
  cases noHeaders with
  | true =>
      rw [Table.cells, selectedTable, if_pos rfl, List.map_map, List.map_map, List.length_map,
        length_selectedRows, if_pos rfl, Nat.zero_add]
      rfl
  | false =>
      rw [Table.cells, selectedTable, if_neg Bool.false_ne_true, List.map_cons, List.map_cons,
        furtherLines_headers, List.map_map, List.map_map, List.length_cons, List.length_map,
        List.sum_cons, List.map_map, length_selectedRows, if_neg Bool.false_ne_true, Nat.zero_add,
        Nat.add_comm 1]
      rfl

/-- There are exactly as many lines as covered entries, and one more for the headers if they are
shown, if each covered entry has a row of one line. -/
theorem length_printedLines_iff
    {secrets : List Cluster.Secret}
    {decoded : List Secret}
    (h : List.Forall₂ ReducesTo secrets decoded)
    (q : Query)
    (noHeaders : Bool) :
    ∃ (text : String) (lines : List (List Char)),
      Table.printTo (listing secrets q noHeaders) (.ofCapacity none) =
        (⟨none, text.toUTF8.toList⟩, none) ∧
      Text.terminatedLines? text.toList = some lines ∧
      (if noHeaders then 0 else 1) + coveredEntries q decoded ≤ lines.length ∧
      (lines.length = (if noHeaders then 0 else 1) + coveredEntries q decoded ↔
        ∀ s ∈ decoded, q.covers s = true → ∀ r ∈ s.rows, r.OneLine q.allNamespaces) := by
  obtain ⟨lines, hlines, hlength⟩ := length_lines_selectedTable decoded q noHeaders
  refine ⟨_, lines, printTo_listing h q noHeaders, hlines, by omega, ?_⟩
  have hnone : ∀ r : Row, furtherLines ((r.cells q.allNamespaces).map String.toList) = 0 ↔
      r.OneLine q.allNamespaces := fun r => List.count_eq_zero
  rw [hlength, Nat.add_eq_left, List.sum_eq_zero_iff_forall_eq_nat, List.forall_mem_map]
  simp only [hnone, mem_selectedRows]
  exact ⟨fun hall s hs hq r hr => hall r ⟨s, hs, hq, hr⟩,
    fun hall r ⟨s, hs, hq, hr⟩ => hall s hs hq r hr⟩

/-- Credentials whose email ends in a newline. -/
def trailingSecret : Cluster.Secret :=
  pullSecret
    "\x7b\"auths\":\x7b\"r.io\":\x7b\"username\":\"u\",\"email\":\"e\\n\"\x7d\x7d\x7d"

/-- A newline at the end of a line is taken away, so there is one line for the entry. -/
theorem length_printedLines_iff_trailingNewline :
    ∃ decoded, List.Forall₂ ReducesTo [trailingSecret] decoded ∧
      coveredEntries ⟨none, none⟩ decoded = 1 ∧
      ∃ (text : String) (lines : List (List Char)),
        Table.printTo (listing [trailingSecret] ⟨none, none⟩ true) (.ofCapacity none) =
          (⟨none, text.toUTF8.toList⟩, none) ∧
        Text.terminatedLines? text.toList = some lines ∧ lines.length = 1 := by
  have hdecode : DockerConfig.decode (Secret.payload trailingSecret) =
      .ok ⟨KeyMap.empty.insert "r.io" ⟨"u", "", "e\n"⟩⟩ := by
    decide +kernel
  have hreduced : List.Forall₂ ReducesTo [trailingSecret] [Secret.ofConfig trailingSecret _] :=
    .cons ⟨_, hdecode, rfl⟩ .nil
  obtain ⟨text, lines, hprinted, hlines, -, hlength⟩ :=
    length_printedLines_iff hreduced ⟨none, none⟩ true
  refine ⟨_, hreduced, by decide, text, lines, hprinted, hlines, hlength.mpr ?_⟩
  simp only [List.forall_mem_singleton]
  unfold Row.OneLine
  decide

/-- A secret with one auth entry, which has a newline in its username. -/
def forgedSecret : Cluster.Secret :=
  pullSecret
    ("\x7b\"auths\":\x7b\"r2.io\":\x7b\"username\":\"u1   r1.io   e1\\n   pull   u2\"," ++
      "\"email\":\"e2\"\x7d\x7d\x7d")

/-- A secret with two auth entries. -/
def honestSecret : Cluster.Secret :=
  pullSecret
    ("\x7b\"auths\":\x7b\"r1.io\":\x7b\"username\":\"u1\",\"email\":\"e1\"\x7d," ++
      "\"r2.io\":\x7b\"username\":\"u2\",\"email\":\"e2\"\x7d\x7d\x7d")

/-- What the secret with one entry decodes to. -/
def forgedConfig : DockerConfig :=
  ⟨KeyMap.empty.insert "r2.io" ⟨"u1   r1.io   e1\n   pull   u2", "", "e2"⟩⟩

/-- What the secret with two entries decodes to. -/
def honestConfig : DockerConfig :=
  ⟨(KeyMap.empty.insert "r1.io" ⟨"u1", "", "e1"⟩).insert "r2.io" ⟨"u2", "", "e2"⟩⟩

/-- A newline in a username makes up a further row: the one entry of a secret is printed on two
lines, octet by octet as the two entries of another secret are. -/
theorem length_printedLines_forgedRow :
    ∃ forged honest,
      List.Forall₂ ReducesTo [forgedSecret] forged ∧
      List.Forall₂ ReducesTo [honestSecret] honest ∧
      coveredEntries ⟨some "apps", none⟩ forged = 1 ∧
      coveredEntries ⟨some "apps", none⟩ honest = 2 ∧
      ∃ (text : String) (lines : List (List Char)),
        Table.printTo (listing [forgedSecret] ⟨some "apps", none⟩ true) (.ofCapacity none) =
          (⟨none, text.toUTF8.toList⟩, none) ∧
        Table.printTo (listing [honestSecret] ⟨some "apps", none⟩ true) (.ofCapacity none) =
          (⟨none, text.toUTF8.toList⟩, none) ∧
        Text.terminatedLines? text.toList = some lines ∧ lines.length = 2 := by
  have hforged : List.Forall₂ ReducesTo [forgedSecret]
      [Secret.ofConfig forgedSecret forgedConfig] :=
    .cons ⟨_, by decide +kernel, rfl⟩ .nil
  have hhonest : List.Forall₂ ReducesTo [honestSecret]
      [Secret.ofConfig honestSecret honestConfig] :=
    .cons ⟨_, by decide +kernel, rfl⟩ .nil
  -- rows of different secrets, but one text
  have htext :
      (selectedTable [Secret.ofConfig forgedSecret forgedConfig] ⟨some "apps", none⟩ true).text =
        (selectedTable [Secret.ofConfig honestSecret honestConfig] ⟨some "apps", none⟩
          true).text := by
    decide +kernel
  refine ⟨_, _, hforged, hhonest, by decide, by decide, _,
    ["   pull   u1   r1.io   e1".toList, "   pull   u2   r2.io   e2".toList],
    htext ▸ printTo_listing hforged _ _, printTo_listing hhonest _ _, ?_, rfl⟩
  decide +kernel

end Registry
end ServingAdmin
