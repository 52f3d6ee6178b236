import ServingAdmin.Json.Reader
import ServingAdmin.Json.Value.Basic

/-!
# Reading JSON values

Reads a value of any shape into memory.  Brackets may be nested only so deep, which is
what the recursion is on; there is no such limit for values that are passed over.
-/

namespace ServingAdmin
namespace Json
namespace Value

open Octet Reader

/-- How many brackets may be open at once around a place of a text. -/
def depthLimit : Nat := 127

/-- The value of what was read. -/
def ofPart {α : Type} (f : α → Value) (p : Part α) : Part Value :=
  match p with
  | .error fault => .error fault
  | .ok (a, rest) => .ok (f a, rest)

theorem eq_ok_of_ofPart {α : Type} {f : α → Value} {p : Part α} {v : Value} {rest : List UInt8}
    (h : ofPart f p = .ok (v, rest)) : ∃ a, p = .ok (a, rest) := by
  unfold ofPart at h
  split at h
  · cases h
  · obtain ⟨-, rfl⟩ := Prod.mk.inj (Except.ok.inj h)
    exact ⟨_, rfl⟩

/-- The value of a number. -/
def ofNumber : Number → Value
  | .whole n => whole n
  | .real x => real x

/-- The value that a word stands for, by its first letter. -/
def ofWord (b : UInt8) : Value :=
  if b = 0x74 then boolean true else if b = 0x66 then boolean false else null

/-- Reads a word, a number or a string, of which the first octet is known. -/
def readScalar (b : UInt8) (rest : List UInt8) : Part Value :=
  match wordAfter? b with
  | some word =>
      match skipWord word rest with
      | .error fault => .error fault
      | .ok rest' => .ok (ofWord b, rest')
  | none =>
      if b = minus then ofPart ofNumber (readNumber true rest)
      else if isDigit b then ofPart ofNumber (readNumber false (b :: rest))
      else if b = quote then ofPart text (readText rest)
      else .error .malformed

theorem length_le_of_readScalar {b : UInt8} {s rest : List UInt8} {v : Value}
    (h : readScalar b s = .ok (v, rest)) : rest.length ≤ (b :: s).length := by
  unfold readScalar at h
  split at h
  · split at h
    · cases h
    · rename_i hword
      obtain ⟨-, rfl⟩ := Prod.mk.inj (Except.ok.inj h)
      exact Nat.le_succ_of_le (length_le_of_skipWord hword)
  · split at h
    · obtain ⟨n, hn⟩ := eq_ok_of_ofPart h
      exact Nat.le_succ_of_le (length_le_of_readNumber hn)
    · split at h
      · obtain ⟨n, hn⟩ := eq_ok_of_ofPart h
        exact length_le_of_readNumber hn
      · split at h
        · obtain ⟨s', hs⟩ := eq_ok_of_ofPart h
          exact Nat.le_succ_of_le (Nat.le_of_lt (length_lt_of_readText hs))
        · cases h

/-- Reads a value in which at most so many brackets are open at once. -/
def reader : Nat → Reader Value
  | 0 =>
      fromOctet
        (fun b rest =>
          if b = openArray ∨ b = openObject then .error .malformed else readScalar b rest)
        (by
          intro b s rest v h
          split at h
          · cases h
          · exact length_le_of_readScalar h)
  | depth + 1 =>
      fromOctet
        (fun b rest =>
          if b = openArray then (((listOf (reader depth)).map array).run (b :: rest))
          else if b = openObject then (((mapOf (reader depth)).map ofMap).run (b :: rest))
          else readScalar b rest)
        (by
          intro b s rest v h
          split at h
          · exact Reader.shrinks _ h
          · split at h
            · exact Reader.shrinks _ h
            · exact length_le_of_readScalar h)

/-- The value that makes up a whole text. -/
def read (s : List UInt8) : Except Fault Value := (reader depthLimit).readWhole s

end Value
end Json
end ServingAdmin
