import ServingAdmin.Json.Strings
import ServingAdmin.Json.Writer
import ServingAdmin.Proofs.Text.Octets

/-!
# Written strings are read back

A character stands in a written string as itself, behind a backslash as a letter, or behind a
backslash as a number (`Written`).  In each of these forms the reader gets its octets back, whatever
was read before and whatever is still to come (`readOctetsFrom_written`), so a string is read as
what was written (`readText_written`).
-/

namespace ServingAdmin
namespace Json

open Octet
open Text (octets)

/-! ### Forms of a character -/

/-- How a character may stand in a string. -/
inductive Written : Char → List Char → Prop
  | letter
      {c l : Char}
      (hl : l.toNat < 0x80)
      (hc : c.toNat < 0x80)
      (h : escaped? (.ofNat l.toNat) = some (.ofNat c.toNat)) :
      Written c ['\\', l]
  | numbered
      {c : Char}
      (hc : c.toNat < 0x20) :
      Written c ('\\' :: 'u' :: '0' :: '0' :: Writer.twoHexDigits c.toNat)
  | plain
      {c : Char}
      (hquote : c ≠ '"')
      (hbackslash : c ≠ '\\')
      (hc : 0x20 ≤ c.toNat) :
      Written c [c]

theorem written_stringChar
    (c : Char) :
    Written c (Writer.stringChar c) := by
  unfold Writer.stringChar
  iterate 7
    split
    · rename_i h
      subst h
      exact .letter (by decide) (by decide) (by decide)
  split
  · rename_i h
    exact .numbered h
  · rename_i hquote hbackslash _ _ _ _ _ h
    exact .plain hquote hbackslash (Nat.le_of_not_lt h)

/-! ### Reading a character -/

variable {before rest : List UInt8}

/-- An escape contributes the octets that are read for it. -/
theorem readOctetsFrom_backslash
    {s l : List UInt8}
    (h : readEscape s = .ok (l, rest)) :
    readOctetsFrom before (backslash :: s) = readOctetsFrom (l.reverse ++ before) rest := by
  rw [readOctetsFrom, if_neg (by decide), if_pos rfl]
  split
  · rename_i hfault
    rw [h] at hfault
    cases hfault
  · rename_i hread
    rw [h] at hread
    cases hread
    rfl

theorem readEscape_of_escaped?
    {b octet : UInt8}
    (h : escaped? b = some octet)
    (rest : List UInt8) :
    readEscape (b :: rest) = .ok ([octet], rest) := by
  simp only [readEscape, h]

/-- Octets that are neither marks nor controls stand for themselves. -/
theorem readOctetsFrom_append
    {l : List UInt8}
    (h : ∀ b ∈ l, b ≠ quote ∧ b ≠ backslash ∧ isControl b = false) :
    readOctetsFrom before (l ++ rest) = readOctetsFrom (l.reverse ++ before) rest := by
  induction l generalizing before with
  | nil => rfl
  | cons b l ih =>
      obtain ⟨hb, hl⟩ := List.forall_mem_cons.mp h
      obtain ⟨hquote, hbackslash, hcontrol⟩ := hb
      rw [List.cons_append, readOctetsFrom, if_neg hquote, if_neg hbackslash, hcontrol,
        if_neg Bool.false_ne_true, ih hl, List.reverse_cons, List.append_assoc]
      rfl

/-- The octets of a character that is not a control are no controls. -/
theorem plain_of_mem_utf8EncodeChar
    {c : Char}
    (hquote : c ≠ '"')
    (hbackslash : c ≠ '\\')
    (hc : 0x20 ≤ c.toNat)
    {b : UInt8}
    (hb : b ∈ String.utf8EncodeChar c) :
    b ≠ quote ∧ b ≠ backslash ∧ isControl b = false := by
  have hneQuote : c.toNat ≠ 0x22 := fun h => hquote (Char.toNat_inj.mp h)
  have hneBackslash : c.toNat ≠ 0x5C := fun h => hbackslash (Char.toNat_inj.mp h)
  have hcode : 0x20 ≤ b.toNat ∧ b.toNat ≠ 0x22 ∧ b.toNat ≠ 0x5C := by
    by_cases hascii : c.toNat < 0x80
    · rw [Text.utf8EncodeChar_of_ascii hascii, List.mem_singleton] at hb
      subst hb
      rw [UInt8.toNat_ofNat']
      omega
    · have hbeyond := Text.le_of_mem_utf8EncodeChar (Nat.le_of_not_lt hascii) hb
      omega
  obtain ⟨hcontrol, hq, hs⟩ := hcode
  refine ⟨fun h => hq (congrArg UInt8.toNat h), fun h => hs (congrArg UInt8.toNat h), ?_⟩
  simpa [isControl, UInt8.le_iff_toNat_le] using hcontrol

/-- A digit in base sixteen is a single octet, and is read as its value. -/
theorem hexValue?_digitChar
    {n : Nat}
    (h : n < 16) :
    ∃ b, String.utf8EncodeChar (Nat.digitChar n) = [b] ∧ hexValue? b = some n := by
  have hdigits :
      ∀ n < 16, (Nat.digitChar n).toNat < 0x80 ∧
        hexValue? (.ofNat (Nat.digitChar n).toNat) = some n := by
    decide
  obtain ⟨hascii, hvalue⟩ := hdigits n h
  exact ⟨_, Text.utf8EncodeChar_of_ascii hascii, hvalue⟩

/-- The digits of an escaped control are four octets. -/
theorem octets_twoHexDigits
    (n : Nat) :
    ∃ z a b, octets ('0' :: '0' :: Writer.twoHexDigits n) = [z, z, a, b] ∧
      hexValue? z = some 0 ∧ hexValue? a = some (n / 16 % 16) ∧ hexValue? b = some (n % 16) := by
  obtain ⟨z, hz, hzero⟩ := hexValue?_digitChar (n := 0) (by decide)
  obtain ⟨a, ha, hhigh⟩ := hexValue?_digitChar (n := n / 16 % 16) (by omega)
  obtain ⟨b, hb, hlow⟩ := hexValue?_digitChar (n := n % 16) (by omega)
  refine ⟨z, a, b, ?_, hzero, hhigh, hlow⟩
  change String.utf8EncodeChar (Nat.digitChar 0) ++ (String.utf8EncodeChar (Nat.digitChar 0) ++
    (String.utf8EncodeChar (Nat.digitChar (n / 16 % 16)) ++
      (String.utf8EncodeChar (Nat.digitChar (n % 16)) ++ []))) = _
  rw [hz, ha, hb]
  rfl

/-- The digits of an escaped control are read as its number. -/
theorem readUnit_twoHexDigits
    {n : Nat}
    (h : n < 0x20)
    (rest : List UInt8) :
    readUnit (octets ('0' :: '0' :: Writer.twoHexDigits n) ++ rest) = .ok (n, rest) := by
  obtain ⟨z, a, b, hoctets, hzero, hhigh, hlow⟩ := octets_twoHexDigits n
  have hvalue : ((0 * 16 + 0) * 16 + n / 16 % 16) * 16 + n % 16 = n := by
    omega
  rw [hoctets]
  simp only [List.cons_append, List.nil_append, readUnit, hzero, hhigh, hlow, hvalue]

/-- A character is read back from each of its forms. -/
theorem readOctetsFrom_written
    {c : Char}
    {l : List Char}
    (h : Written c l) :
    readOctetsFrom before (octets l ++ rest) =
      readOctetsFrom ((String.utf8EncodeChar c).reverse ++ before) rest := by
  cases h with
  | letter hl hc h =>
      rw [Text.octets_cons, Text.octets_cons, Text.utf8EncodeChar_of_ascii hl,
        Text.utf8EncodeChar_of_ascii hc]
      exact readOctetsFrom_backslash (readEscape_of_escaped? h rest)
  | numbered hc =>
      have hunit := readUnit_twoHexDigits hc rest
      refine readOctetsFrom_backslash ?_
      change readNumbered (octets ('0' :: '0' :: Writer.twoHexDigits c.toNat) ++ rest) = _
      rw [readNumbered, hunit]
      simp only
      rw [if_neg (by omega), if_neg (by omega), Char.ofNat_toNat]
  | plain hquote hbackslash hc =>
      rw [Text.octets_cons, Text.octets_nil, List.append_nil]
      exact readOctetsFrom_append fun _ hb =>
        plain_of_mem_utf8EncodeChar hquote hbackslash hc hb

/-! ### Reading a string -/

theorem readOctetsFrom_written_append
    (l : List Char)
    (before rest : List UInt8) :
    readOctetsFrom before (octets (l.flatMap Writer.stringChar) ++ rest) =
      readOctetsFrom ((octets l).reverse ++ before) rest := by
  induction l generalizing before with
  | nil => rfl
  | cons c l ih =>
      rw [List.flatMap_cons, Text.octets_append, List.append_assoc,
        readOctetsFrom_written (written_stringChar c), ih, Text.octets_cons, List.reverse_append,
        List.append_assoc]

theorem textOf?_octets
    (s : String) :
    textOf? (octets s.toList) = some s := by
  have hbytes : (⟨(octets s.toList).toArray⟩ : ByteArray) = s.toByteArray := by
    rw [← String.utf8Encode_toList]
    exact ByteArray.ext (List.data_toByteArray).symm
  rw [textOf?, hbytes, String.fromUTF8?, dif_pos s.isValidUTF8]
  rfl

/-- A string is read as what was written. -/
theorem readText_written
    (s : String)
    (rest : List UInt8) :
    readText (octets (s.toList.flatMap Writer.stringChar ++ ['"']) ++ rest) = .ok (s, rest) := by
  have hoctets : readOctets (octets (s.toList.flatMap Writer.stringChar ++ ['"']) ++ rest) =
      .ok (octets s.toList, rest) := by
    rw [readOctets, Text.octets_append, List.append_assoc, readOctetsFrom_written_append]
    change readOctetsFrom _ (quote :: rest) = _
    rw [readOctetsFrom, if_pos rfl, List.append_nil, List.reverse_reverse]
  simp only [readText, hoctets, textOf?_octets]

end Json
end ServingAdmin
