import ServingAdmin.Json.Numbers

/-!
# Passing over JSON values

The value of an unknown member is passed over without being kept.  The open brackets
around the place that is looked at are held in a list, so there is no limit to the depth
of a value; the grammar is checked as strictly as for values that are kept.
-/

namespace ServingAdmin
namespace Json

open Octet

/-- An open bracket. -/
inductive Bracket
  | array
  | object
  deriving DecidableEq

/-- The octet that closes a bracket. -/
def Bracket.closing : Bracket → UInt8
  | array => closeArray
  | object => closeObject

/-- What comes next inside brackets. -/
inductive Place
  /-- A value. -/
  | value
  /-- The first item of the innermost bracket, or its end. -/
  | opened
  /-- A comma, or the end of the innermost bracket. -/
  | afterItem
  deriving DecidableEq

/-- Reads a given word. -/
def skipWord : List UInt8 → List UInt8 → Except Fault (List UInt8)
  | [], s => .ok s
  | _ :: _, [] => .error .truncated
  | w :: word, b :: rest => if b = w then skipWord word rest else .error .malformed

/-- The letters behind the first of each word. -/
def wordAfter? (b : UInt8) : Option (List UInt8) :=
  if b = 0x6E then some [0x75, 0x6C, 0x6C]
  else if b = 0x74 then some [0x72, 0x75, 0x65]
  else if b = 0x66 then some [0x61, 0x6C, 0x73, 0x65]
  else none

/-- Reads a colon behind blanks. -/
def skipColon (s : List UInt8) : Except Fault (List UInt8) :=
  match skipBlanks s with
  | [] => .error .truncated
  | b :: rest => if b = colon then .ok rest else .error .malformed

/-- Passes over the name of a member and the colon behind it. -/
def skipName : List UInt8 → Except Fault (List UInt8)
  | [] => .error .truncated
  | b :: rest =>
      if b = quote then
        match skipString rest with
        | .error fault => .error fault
        | .ok rest' => skipColon rest'
      else .error .malformed

/-- Passes over a word, a number or a string, of which the first octet is known. -/
def skipScalar (b : UInt8) (rest : List UInt8) : Except Fault (List UInt8) :=
  match wordAfter? b with
  | some word => skipWord word rest
  | none =>
      if b = minus then skipNumber rest
      else if isDigit b then skipNumber (b :: rest)
      else if b = quote then skipString rest
      else .error .malformed

/-- Where a walk over a value stands: the open brackets and what comes next. -/
abbrev Walk := List Bracket × Place

/-- One step of the walk from a value. -/
def stepValue (open_ : List Bracket) (b : UInt8) (rest : List UInt8) :
    Part Walk :=
  if b = openArray then .ok ((.array :: open_, .opened), rest)
  else if b = openObject then .ok ((.object :: open_, .opened), rest)
  else
    match skipScalar b rest with
    | .error fault => .error fault
    | .ok rest' => .ok ((open_, .afterItem), rest')

/-- One step of the walk to the next item of a bracket. -/
def stepItem (bracket : Bracket) (open_ : List Bracket) (s : List UInt8) : Part Walk :=
  match bracket with
  | .array => .ok ((.array :: open_, .value), s)
  | .object =>
      match skipName (skipBlanks s) with
      | .error fault => .error fault
      | .ok rest => .ok ((.object :: open_, .value), rest)

/-- One step of the walk, from an octet that is not blank. -/
def step (walk : Walk) (b : UInt8) (rest : List UInt8) : Part Walk :=
  match walk with
  | (open_, .value) => stepValue open_ b rest
  | ([], _) => .error .malformed
  | (bracket :: open_, .opened) =>
      if b = bracket.closing then .ok ((open_, .afterItem), rest)
      else
        match bracket with
        | .array => stepValue (.array :: open_) b rest
        | .object =>
            match skipName (b :: rest) with
            | .error fault => .error fault
            | .ok rest' => .ok ((.object :: open_, .value), rest')
  | (bracket :: open_, .afterItem) =>
      if b = comma then stepItem bracket open_ rest
      else if b = bracket.closing then .ok ((open_, .afterItem), rest)
      else .error .malformed

theorem length_le_of_skipWord {word s rest : List UInt8} (h : skipWord word s = .ok rest) :
    rest.length ≤ s.length := by
  fun_induction skipWord word s with
  | case1 =>
      obtain rfl := Except.ok.inj h
      exact Nat.le_refl _
  | case2 => cases h
  | case3 =>
      rename_i ih
      exact Nat.le_succ_of_le (ih h)
  | case4 => cases h

theorem length_lt_of_skipColon {s rest : List UInt8} (h : skipColon s = .ok rest) :
    rest.length < s.length := by
  have hle := length_skipBlanks_le s
  unfold skipColon at h
  split at h
  · cases h
  · rename_i heq
    rw [heq] at hle
    split at h
    · obtain rfl := Except.ok.inj h
      exact hle
    · cases h

theorem length_lt_of_skipName {s rest : List UInt8} (h : skipName s = .ok rest) :
    rest.length < s.length := by
  unfold skipName at h
  split at h
  · cases h
  · split at h
    · split at h
      · cases h
      · rename_i hstring
        exact Nat.lt_trans (length_lt_of_skipColon h)
          (Nat.lt_succ_of_lt (length_lt_of_skipString hstring))
    · cases h

theorem length_lt_of_skipScalar {b : UInt8} {s rest : List UInt8}
    (h : skipScalar b s = .ok rest) : rest.length < (b :: s).length := by
  unfold skipScalar at h
  split at h
  · exact Nat.lt_succ_of_le (length_le_of_skipWord h)
  · split at h
    · exact Nat.lt_succ_of_lt (length_lt_of_skipNumber h)
    · split at h
      · exact length_lt_of_skipNumber h
      · split at h
        · exact Nat.lt_succ_of_lt (length_lt_of_skipString h)
        · cases h

theorem length_lt_of_stepValue {o : List Bracket} {b : UInt8} {s rest : List UInt8} {w : Walk}
    (h : stepValue o b s = .ok (w, rest)) : rest.length < (b :: s).length := by
  unfold stepValue at h
  split at h
  · obtain ⟨-, rfl⟩ := Prod.mk.inj (Except.ok.inj h)
    exact Nat.lt_succ_self _
  · split at h
    · obtain ⟨-, rfl⟩ := Prod.mk.inj (Except.ok.inj h)
      exact Nat.lt_succ_self _
    · split at h
      · cases h
      · rename_i hscalar
        obtain ⟨-, rfl⟩ := Prod.mk.inj (Except.ok.inj h)
        exact length_lt_of_skipScalar hscalar

theorem length_le_of_stepItem {k : Bracket} {o : List Bracket} {s rest : List UInt8} {w : Walk}
    (h : stepItem k o s = .ok (w, rest)) : rest.length ≤ s.length := by
  unfold stepItem at h
  split at h
  · obtain ⟨-, rfl⟩ := Prod.mk.inj (Except.ok.inj h)
    exact Nat.le_refl _
  · split at h
    · cases h
    · rename_i hname
      obtain ⟨-, rfl⟩ := Prod.mk.inj (Except.ok.inj h)
      exact Nat.le_of_lt (Nat.lt_of_lt_of_le (length_lt_of_skipName hname)
        (length_skipBlanks_le s))

/-- Every step of the walk takes up a part of the text. -/
theorem length_lt_of_step {walk w : Walk} {b : UInt8} {s rest : List UInt8}
    (h : step walk b s = .ok (w, rest)) : rest.length < (b :: s).length := by
  unfold step at h
  split at h
  · exact length_lt_of_stepValue h
  · cases h
  · split at h
    · obtain ⟨-, rfl⟩ := Prod.mk.inj (Except.ok.inj h)
      exact Nat.lt_succ_self _
    · split at h
      · exact length_lt_of_stepValue h
      · split at h
        · cases h
        · rename_i hname
          obtain ⟨-, rfl⟩ := Prod.mk.inj (Except.ok.inj h)
          exact length_lt_of_skipName hname
  · split at h
    · exact Nat.lt_succ_of_le (length_le_of_stepItem h)
    · split at h
      · obtain ⟨-, rfl⟩ := Prod.mk.inj (Except.ok.inj h)
        exact Nat.lt_succ_self _
      · cases h

/-- Walks on until every bracket is closed. -/
def walkOn (walk : Walk) (s : List UInt8) : Except Fault (List UInt8) :=
  match _h : skipBlanks s with
  | [] => .error .truncated
  | b :: rest =>
      match _hstep : step walk b rest with
      | .error fault => .error fault
      | .ok (([], .afterItem), rest') => .ok rest'
      | .ok (walk', rest') => walkOn walk' rest'
termination_by s.length
decreasing_by
  have hle := length_skipBlanks_le s
  rw [_h] at hle
  exact Nat.lt_of_lt_of_le (length_lt_of_step _hstep) hle

/-- Passes over a value of any shape, with the blanks before it. -/
def skipValue (s : List UInt8) : Except Fault (List UInt8) := walkOn ([], .value) s

theorem length_lt_of_walkOn {walk : Walk} {s rest : List UInt8} (h : walkOn walk s = .ok rest) :
    rest.length < s.length := by
  fun_induction walkOn walk s with
  | case1 => cases h
  | case2 => cases h
  | case3 =>
      rename_i hblank _ hstep
      obtain rfl := Except.ok.inj h
      exact Nat.lt_of_lt_of_le (length_lt_of_step hstep) (hblank ▸ length_skipBlanks_le _)
  | case4 =>
      rename_i hblank _ _ _ hstep ih
      exact Nat.lt_trans (ih h)
        (Nat.lt_of_lt_of_le (length_lt_of_step hstep) (hblank ▸ length_skipBlanks_le _))

end Json
end ServingAdmin
