import ServingAdmin.Json.Fault
import ServingAdmin.Json.Octet

/-!
# JSON strings

The octets of a string, read from behind its opening quote to behind its closing one.
`readOctets` undoes the escapes; numbered escapes name UTF-16 units, and the halves of a
pair have to follow each other.  `skipString` only looks for the end of a string whose
value does not matter: escapes have to have their letters and digits, but pairs are not
looked at.  Neither looks at UTF-8; `readText` does, when the whole string is read.
-/

namespace ServingAdmin
namespace Json

open Octet

/-- What reading a part of a text gives: a value and the rest, or a fault. -/
abbrev Part (α : Type) := Except Fault (α × List UInt8)

/-- Reads the four digits of a numbered escape. -/
def readUnit : List UInt8 → Part Nat
  | a :: b :: c :: d :: rest =>
      match hexValue? a, hexValue? b, hexValue? c, hexValue? d with
      | some a, some b, some c, some d => .ok (((a * 16 + b) * 16 + c) * 16 + d, rest)
      | _, _, _, _ => .error .malformed
  | _ => .error .truncated

/-- Reads the second half of a pair of units. -/
def readLowUnit : List UInt8 → Part Nat
  | [] => .error .truncated
  | b :: rest =>
      if b ≠ backslash then .error .malformed
      else
        match rest with
        | [] => .error .truncated
        | u :: rest =>
            if u ≠ 0x75 then .error .malformed
            else
              match readUnit rest with
              | .error fault => .error fault
              | .ok (low, rest) =>
                  if low < 0xDC00 ∨ 0xDFFF < low then .error .malformed else .ok (low, rest)

/-- Reads the character of a numbered escape. -/
def readNumbered (s : List UInt8) : Part (List UInt8) :=
  match readUnit s with
  | .error fault => .error fault
  | .ok (high, rest) =>
      if 0xDC00 ≤ high ∧ high ≤ 0xDFFF then .error .malformed
      else if 0xD800 ≤ high ∧ high ≤ 0xDBFF then
        match readLowUnit rest with
        | .error fault => .error fault
        | .ok (low, rest) =>
            let n := 0x10000 + (high - 0xD800) * 0x400 + (low - 0xDC00)
            .ok (String.utf8EncodeChar (Char.ofNat n), rest)
      else .ok (String.utf8EncodeChar (Char.ofNat high), rest)

/-- The octet of an escape that is a single letter. -/
def escaped? (b : UInt8) : Option UInt8 :=
  if b = quote then some quote
  else if b = backslash then some backslash
  else if b = 0x2F then some 0x2F
  else if b = 0x62 then some 0x08
  else if b = 0x66 then some 0x0C
  else if b = 0x6E then some 0x0A
  else if b = 0x72 then some 0x0D
  else if b = 0x74 then some 0x09
  else none

/-- Reads an escape behind its backslash. -/
def readEscape : List UInt8 → Part (List UInt8)
  | [] => .error .truncated
  | b :: rest =>
      match escaped? b with
      | some octet => .ok ([octet], rest)
      | none => if b = 0x75 then readNumbered rest else .error .malformed

/-- Passes over an escape behind its backslash. -/
def skipEscape : List UInt8 → Except Fault (List UInt8)
  | [] => .error .truncated
  | b :: rest =>
      match escaped? b with
      | some _ => .ok rest
      | none =>
          if b = 0x75 then
            match readUnit rest with
            | .error fault => .error fault
            | .ok (_, rest') => .ok rest'
          else .error .malformed

theorem length_lt_of_readUnit {s rest : List UInt8} {n : Nat} (h : readUnit s = .ok (n, rest)) :
    rest.length < s.length := by
  unfold readUnit at h
  split at h
  · split at h
    · cases h
      simp only [List.length_cons]
      omega
    · cases h
  · cases h

theorem length_lt_of_readLowUnit {s rest : List UInt8} {n : Nat}
    (h : readLowUnit s = .ok (n, rest)) : rest.length < s.length := by
  unfold readLowUnit at h
  repeat' split at h
  all_goals try cases h
  rename_i heq
  have := length_lt_of_readUnit heq
  simp only [List.length_cons]
  omega

theorem length_lt_of_readNumbered {s rest octets : List UInt8}
    (h : readNumbered s = .ok (octets, rest)) : rest.length < s.length := by
  unfold readNumbered at h
  split at h
  · cases h
  · rename_i hhigh
    have hlt := length_lt_of_readUnit hhigh
    split at h
    · cases h
    · split at h
      · split at h
        · cases h
        · rename_i hlow
          obtain ⟨-, rfl⟩ := Prod.mk.inj (Except.ok.inj h)
          exact Nat.lt_trans (length_lt_of_readLowUnit hlow) hlt
      · obtain ⟨-, rfl⟩ := Prod.mk.inj (Except.ok.inj h)
        exact hlt

theorem length_lt_of_readEscape {s rest octets : List UInt8}
    (h : readEscape s = .ok (octets, rest)) : rest.length < s.length := by
  unfold readEscape at h
  split at h
  · cases h
  · split at h
    · obtain ⟨-, rfl⟩ := Prod.mk.inj (Except.ok.inj h)
      exact Nat.lt_succ_self _
    · split at h
      · exact Nat.lt_succ_of_lt (length_lt_of_readNumbered h)
      · cases h

theorem length_lt_of_skipEscape {s rest : List UInt8} (h : skipEscape s = .ok rest) :
    rest.length < s.length := by
  unfold skipEscape at h
  split at h
  · cases h
  · split at h
    · obtain rfl := Except.ok.inj h
      exact Nat.lt_succ_self _
    · split at h
      · split at h
        · cases h
        · rename_i hunit
          obtain rfl := Except.ok.inj h
          exact Nat.lt_succ_of_lt (length_lt_of_readUnit hunit)
      · cases h

/-- Reads the octets of a string behind those read before, which are kept in reverse. -/
def readOctetsFrom (before : List UInt8) (s : List UInt8) : Part (List UInt8) :=
  match s with
  | [] => .error .truncated
  | b :: rest =>
      if b = quote then .ok (before.reverse, rest)
      else if b = backslash then
        match _h : readEscape rest with
        | .error fault => .error fault
        | .ok (octets, rest') => readOctetsFrom (octets.reverse ++ before) rest'
      else if isControl b then .error .malformed
      else readOctetsFrom (b :: before) rest
termination_by s.length
decreasing_by
  · exact Nat.lt_succ_of_lt (length_lt_of_readEscape _h)
  · exact Nat.lt_succ_self _

/-- Reads the octets of a string behind its opening quote. -/
def readOctets (s : List UInt8) : Part (List UInt8) := readOctetsFrom [] s

/-- Passes over a string behind its opening quote. -/
def skipString (s : List UInt8) : Except Fault (List UInt8) :=
  match s with
  | [] => .error .truncated
  | b :: rest =>
      if b = quote then .ok rest
      else if b = backslash then
        match _h : skipEscape rest with
        | .error fault => .error fault
        | .ok rest' => skipString rest'
      else if isControl b then .error .malformed
      else skipString rest
termination_by s.length
decreasing_by
  · exact Nat.lt_succ_of_lt (length_lt_of_skipEscape _h)
  · exact Nat.lt_succ_self _

/-- The text of UTF-8 octets. -/
def textOf? (octets : List UInt8) : Option String := String.fromUTF8? ⟨octets.toArray⟩

/-- Reads the text of a string behind its opening quote. -/
def readText (s : List UInt8) : Part String :=
  match readOctets s with
  | .error fault => .error fault
  | .ok (octets, rest) =>
      match textOf? octets with
      | some text => .ok (text, rest)
      | none => .error .malformed

theorem length_lt_of_readOctetsFrom {s rest before octets : List UInt8}
    (h : readOctetsFrom before s = .ok (octets, rest)) : rest.length < s.length := by
  fun_induction readOctetsFrom before s with
  | case1 => cases h
  | case2 =>
      obtain ⟨-, rfl⟩ := Prod.mk.inj (Except.ok.inj h)
      exact Nat.lt_succ_self _
  | case3 => cases h
  | case4 =>
      rename_i hescape _ ih
      exact Nat.lt_trans (ih h) (Nat.lt_succ_of_lt (length_lt_of_readEscape hescape))
  | case5 => cases h
  | case6 =>
      rename_i ih
      exact Nat.lt_succ_of_lt (ih h)

theorem length_lt_of_skipString {s rest : List UInt8} (h : skipString s = .ok rest) :
    rest.length < s.length := by
  fun_induction skipString s with
  | case1 => cases h
  | case2 =>
      obtain rfl := Except.ok.inj h
      exact Nat.lt_succ_self _
  | case3 => cases h
  | case4 =>
      rename_i hescape _ ih
      exact Nat.lt_trans (ih h) (Nat.lt_succ_of_lt (length_lt_of_skipEscape hescape))
  | case5 => cases h
  | case6 =>
      rename_i ih
      exact Nat.lt_succ_of_lt (ih h)

theorem length_lt_of_readText {s rest : List UInt8} {text : String}
    (h : readText s = .ok (text, rest)) : rest.length < s.length := by
  unfold readText at h
  split at h
  · cases h
  · rename_i hoctets
    split at h
    · cases h
      exact length_lt_of_readOctetsFrom hoctets
    · cases h

end Json
end ServingAdmin
