import ServingAdmin.Proofs.Json.RecordsRead
import ServingAdmin.Proofs.KeyMap

/-!
# Written values are read back

What is written of a string is a value (`isValue_string`), and what is written of an object is the
object of the written members (`octets_object`), so both are read as values are.  A string is read
as what was written (`takes_text`), and a map of what is written as the map of what is read of it
(`takes_mapOf`).
-/

namespace ServingAdmin
namespace Json

open Octet
open Text (octets)

variable {α β σ : Type}

/-! ### Strings -/

theorem mem_escapeLetters
    {b octet : UInt8}
    (h : escaped? b = some octet) :
    b ∈ escapeLetters := by
  refine Decidable.byContradiction fun hb => ?_
  simp only [escapeLetters, List.mem_cons, List.not_mem_nil, or_false, not_or] at hb
  simp [escaped?, hb] at h

/-- A character is written as it may be spelled. -/
theorem isSpelling_of_written
    {c : Char}
    {l : List Char}
    (h : Written c l) :
    IsSpelling (octets l) := by
  cases h with
  | letter hl _ h =>
      rw [Text.octets_cons, Text.octets_cons, Text.utf8EncodeChar_of_ascii hl]
      exact .letter (mem_escapeLetters h) .nil
  | numbered =>
      obtain ⟨z, a, b, hoctets, hz, ha, hb⟩ := octets_twoHexDigits c.toNat
      have hdigits : ∀ x ∈ [z, z, a, b], (hexValue? x).isSome = true := by
        simp [hz, ha, hb]
      rw [Text.octets_cons, Text.octets_cons, hoctets]
      exact .numbered hdigits .nil
  | plain hquote hbackslash hc =>
      refine isSpelling_of_plain (List.all_eq_true.mpr fun b hb => ?_)
      rw [Text.octets_cons, Text.octets_nil, List.append_nil] at hb
      obtain ⟨hq, hs, hcontrol⟩ := plain_of_mem_utf8EncodeChar hquote hbackslash hc hb
      simp [isPlain, hq, hs, hcontrol]

/-- What is written of a text between the quotes. -/
def spelled
    (s : String) :
    List UInt8 :=
  octets (s.toList.flatMap Writer.stringChar)

theorem isSpelling_spelled
    (s : String) :
    IsSpelling (spelled s) := by
  rw [spelled]
  induction s.toList with
  | nil => exact .nil
  | cons c l ih =>
      rw [List.flatMap_cons, Text.octets_append]
      exact (isSpelling_of_written (written_stringChar c)).append ih

theorem octets_string
    (s : String) :
    octets (Writer.string s) = quote :: (spelled s ++ [quote]) := by
  have hquote : String.utf8EncodeChar '"' = [quote] := by
    decide
  simp [Writer.string, spelled, hquote]

theorem isValue_string
    (s : String) :
    IsValue (octets (Writer.string s)) := by
  rw [octets_string]
  exact .scalar (.string (isSpelling_spelled s))

theorem readText_spelled
    (s : String)
    (rest : List UInt8) :
    readText (spelled s ++ quote :: rest) = .ok (s, rest) := by
  have hread := readText_written s rest
  rwa [Text.octets_append, List.append_assoc] at hread

theorem takes_text
    (s : String) :
    Takes Reader.text (octets (Writer.string s)) s := by
  intro blanks rest hblanks _
  rw [octets_string, List.cons_append, run_text hblanks (by decide), if_pos rfl, List.append_assoc]
  exact readText_spelled s rest

/-! ### Members -/

/-- What is written of a member. -/
def writtenMember
    (m : String × List Char) :
    Member :=
  ⟨[], spelled m.1, [], [], octets m.2, []⟩

theorem framed_writtenMember
    (m : String × List Char) :
    (writtenMember m).Framed :=
  ⟨blanks_nil, isSpelling_spelled m.1, blanks_nil, blanks_nil, blanks_nil⟩

theorem named_writtenMember
    (m : String × List Char) :
    (writtenMember m).Named m.1 :=
  readText_spelled m.1 []

theorem text_writtenMember
    (m : String × List Char) :
    (writtenMember m).text = octets (Writer.member m) := by
  have hcolon : String.utf8EncodeChar ':' = [colon] := by
    decide
  simp [Writer.member, octets_string, hcolon, writtenMember, Member.text, Member.named, Item.text]

variable {members : List (String × List Char)}

theorem wellFormed_writtenMembers
    (h : ∀ m ∈ members, IsValue (octets m.2)) :
    ∀ m ∈ members.map writtenMember, m.WellFormed := by
  simp only [List.forall_mem_map]
  exact fun m hm => ⟨framed_writtenMember m, h m hm⟩

/-! ### Objects, records and maps -/

theorem octets_intercalate
    (pieces : List (List Char)) :
    octets ([','].intercalate pieces) = [comma].intercalate (pieces.map octets) := by
  induction pieces with
  | nil => rfl
  | cons piece pieces ih =>
      cases pieces with
      | nil => simp
      | cons next pieces =>
          rw [List.intercalate_cons_cons, Text.octets_append, Text.octets_append, ih]
          simp only [List.map_cons, List.intercalate_cons_cons]
          rfl

/-- A written object is the object of the written members. -/
theorem octets_object
    (members : List (String × List Char)) :
    octets (Writer.object members) = objectText [] (members.map writtenMember) := by
  have hopen : String.utf8EncodeChar '\x7b' = [openObject] := by
    decide
  have hclose : String.utf8EncodeChar '\x7d' = [closeObject] := by
    decide
  have htext : Member.text ∘ writtenMember = octets ∘ Writer.member :=
    funext text_writtenMember
  simp [Writer.object, Writer.separated, objectText, octets_intercalate, hopen, hclose, htext]

theorem isValue_object
    (h : ∀ m ∈ members, IsValue (octets m.2)) :
    IsValue (octets (Writer.object members)) := by
  rw [octets_object]
  exact isValue_objectText blanks_nil (wellFormed_writtenMembers h)

/-- A written object is grown by a member before any other or behind all. -/
theorem grown_object
    {known : List String}
    {before after : List (String × List Char)}
    {m : String × List Char}
    (hothers : ∀ o ∈ before ++ after, IsValue (octets o.2))
    (hm : IsValue (octets m.2))
    (hunknown : m.1 ∉ known) :
    Grown known (octets (Writer.object (before ++ after)))
      (octets (Writer.object (before ++ m :: after))) := by
  have hmembers := wellFormed_writtenMembers hothers
  rw [List.map_append] at hmembers
  rw [octets_object, octets_object, List.map_append, List.map_append, List.map_cons]
  exact .member blanks_nil hmembers ⟨framed_writtenMember m, hm⟩ (named_writtenMember m) hunknown

theorem changedUnder_object
    {names : String → Prop}
    {change : List UInt8 → List UInt8 → Prop}
    {name : String}
    {text text' : List Char}
    (hname : names name)
    (h : change (octets text) (octets text')) :
    ChangedUnder names change (octets (Writer.object [(name, text)]))
      (octets (Writer.object [(name, text')])) := by
  have hothers : ∀ o ∈ ([] ++ [] : List Member), o.WellFormed := by
    simp
  rw [octets_object, octets_object]
  exact .member blanks_nil hothers (framed_writtenMember (name, text))
    (named_writtenMember (name, text)) hname h

theorem takes_record
    {fields : List (Reader.Field σ)}
    {st st' : σ}
    (hlocal : ∀ f ∈ fields, ∀ st, (f.read st).Local)
    (hvalues : ∀ m ∈ members, IsValue (octets m.2))
    (h : TakesMembers (Reader.onField fields) st (members.map writtenMember) st') :
    Takes (Reader.record fields st) (octets (Writer.object members)) st' := by
  have hmembers := wellFormed_writtenMembers hvalues
  rw [octets_object]
  exact (settled_record_object hlocal hmembers blanks_nil).takes_iff.mpr h

/-- The entries of a map are read one after the other into what was read before. -/
theorem takesMembers_entries
    {r : Reader β}
    {write : α → List Char}
    {f : α → β}
    (h : ∀ a, Takes r (octets (write a)) (f a))
    (entries : List (String × α))
    (m : KeyMap β) :
    TakesMembers (onEntry r) m ((entries.map fun e => (e.1, write e.2)).map writtenMember)
      ((entries.map fun e => (e.1, f e.2)).foldl (fun m e => m.insert e.1 e.2) m) := by
  induction entries generalizing m with
  | nil => exact .nil
  | cons e entries ih =>
      exact .cons ⟨_, _, named_writtenMember _, rfl, (h e.2).map (m.insert e.1)⟩ (ih _)

/-- A written map is read as the map of what is read of its values. -/
theorem takes_mapOf
    {r : Reader β}
    {write : α → List Char}
    {f : α → β}
    (hlocal : r.Local)
    (hvalue : ∀ a, IsValue (octets (write a)))
    (h : ∀ a, Takes r (octets (write a)) (f a))
    (m : KeyMap α) :
    Takes (Reader.mapOf r) (octets (Writer.object (m.entries.map fun e => (e.1, write e.2))))
      (m.mapValues f) := by
  have hvalues : ∀ e ∈ m.entries.map fun e => (e.1, write e.2), IsValue (octets e.2) := by
    simp only [List.forall_mem_map]
    exact fun e _ => hvalue e.2
  have hmembers := takesMembers_entries h m.entries .empty
  have hbuilt := KeyMap.ofList_entries (m.mapValues f)
  rw [KeyMap.ofList] at hbuilt
  change TakesMembers _ _ _ (List.foldl _ _ (m.mapValues f).entries) at hmembers
  rw [hbuilt] at hmembers
  rw [octets_object]
  exact (settled_mapOf hlocal (wellFormed_writtenMembers hvalues) blanks_nil).takes_iff.mpr hmembers

end Json
end ServingAdmin
