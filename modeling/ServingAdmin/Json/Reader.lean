import ServingAdmin.Json.Skip
import ServingAdmin.KeyMap

/-!
# Readers of JSON values

A reader takes a value of a known shape from the front of a text and gives back the
rest, which is never longer (`Reader.shrinks`).  That is why reading the members of an
object or the items of an array, whose number is not known beforehand, comes to an end.

Records are read from objects or from arrays.  In an object the members may come in any
order, members of other names are passed over, and a second member of the same name is
a mismatch.  In an array the fields come in their order, and the last ones may be
missing.
-/

namespace ServingAdmin
namespace Json

open Octet

/-- Takes a value from the front of a text. -/
structure Reader (α : Type) where
  run : List UInt8 → Part α
  shrinks : ∀ {s rest : List UInt8} {a : α}, run s = .ok (a, rest) → rest.length ≤ s.length

/-- The fault of a value that begins with a given octet and has not the expected shape.  Words,
numbers and strings are read to their ends first. -/
def wrongShape (b : UInt8) (rest : List UInt8) : Fault :=
  match wordAfter? b with
  | some word =>
      match skipWord word rest with
      | .error fault => fault
      | .ok _ => .mismatched
  | none =>
      if b = minus then
        match readNumber true rest with
        | .error fault => fault
        | .ok _ => .mismatched
      else if isDigit b then
        match readNumber false (b :: rest) with
        | .error fault => fault
        | .ok _ => .mismatched
      else if b = quote then
        match readText rest with
        | .error fault => fault
        | .ok _ => .mismatched
      else if b = openArray ∨ b = openObject then .mismatched
      else .malformed

namespace Reader

variable {α β σ : Type}

/-- Dispatches on the first octet that is not blank. -/
def fromOctet (f : UInt8 → List UInt8 → Part α)
    (h : ∀ {b : UInt8} {s rest : List UInt8} {a : α},
      f b s = .ok (a, rest) → rest.length ≤ (b :: s).length) : Reader α where
  run s :=
    match skipBlanks s with
    | [] => .error .truncated
    | b :: rest => f b rest
  shrinks := by
    intro s rest a hrun
    split at hrun
    · cases hrun
    · rename_i heq
      exact Nat.le_trans (h hrun) (heq ▸ length_skipBlanks_le s)

/-- Changes the value that is read, or refuses it. -/
def check (r : Reader α) (f : α → Except Fault β) : Reader β where
  run s :=
    match r.run s with
    | .error fault => .error fault
    | .ok (a, rest) =>
        match f a with
        | .error fault => .error fault
        | .ok b => .ok (b, rest)
  shrinks := by
    intro s rest b h
    split at h
    · cases h
    · rename_i hrun
      split at h
      · cases h
      · obtain ⟨-, rfl⟩ := Prod.mk.inj (Except.ok.inj h)
        exact r.shrinks hrun

/-- Changes the value that is read. -/
def map (f : α → β) (r : Reader α) : Reader β := r.check fun a => .ok (f a)

/-- Passes over a value and gives another one. -/
def skipping (a : α) : Reader α where
  run s :=
    match skipValue s with
    | .error fault => .error fault
    | .ok rest => .ok (a, rest)
  shrinks := by
    intro s rest b h
    split at h
    · cases h
    · rename_i hskip
      obtain ⟨-, rfl⟩ := Prod.mk.inj (Except.ok.inj h)
      exact Nat.le_of_lt (length_lt_of_walkOn hskip)

/-- Reads a string. -/
def text : Reader String :=
  fromOctet (fun b rest => if b = quote then readText rest else .error (wrongShape b rest)) (by
    intro b s rest a h
    split at h
    · exact Nat.le_succ_of_le (Nat.le_of_lt (length_lt_of_readText h))
    · cases h)

/-- Reads a boolean. -/
def boolean : Reader Bool :=
  fromOctet
    (fun b rest =>
      match wrongShape b rest with
      | .mismatched =>
          if b = 0x74 then .ok (true, rest.drop 3)
          else if b = 0x66 then .ok (false, rest.drop 4)
          else .error .mismatched
      | fault => .error fault)
    (by
      intro b s rest a h
      split at h
      · repeat' split at h
        all_goals try cases h
        all_goals
          simp only [List.length_drop, List.length_cons]
          omega
      · cases h)

/-- Reads a whole number between two bounds. -/
def whole (low high : Int) : Reader Int :=
  let within (p : Part Number) : Part Int :=
    match p with
    | .error fault => .error fault
    | .ok (.whole n, rest) => if low ≤ n ∧ n ≤ high then .ok (n, rest) else .error .mismatched
    | .ok (.real _, _) => .error .mismatched
  fromOctet
    (fun b rest =>
      if b = minus then within (readNumber true rest)
      else if isDigit b then within (readNumber false (b :: rest))
      else .error (wrongShape b rest))
    (by
      intro b s rest a h
      have key : ∀ {p : Part Number}, within p = .ok (a, rest) →
          ∃ n, p = .ok (n, rest) := by
        intro p hp
        simp only [within] at hp
        split at hp
        · cases hp
        · split at hp
          · obtain ⟨-, rfl⟩ := Prod.mk.inj (Except.ok.inj hp)
            exact ⟨_, rfl⟩
          · cases hp
        · cases hp
      split at h
      · obtain ⟨n, hn⟩ := key h
        exact Nat.le_succ_of_le (length_le_of_readNumber hn)
      · split at h
        · obtain ⟨n, hn⟩ := key h
          exact length_le_of_readNumber hn
        · cases h)

/-- Reads a value that may be null. -/
def optional (r : Reader α) : Reader (Option α) where
  run s :=
    match skipBlanks s with
    | b :: rest =>
        if b = 0x6E then
          match skipWord [0x75, 0x6C, 0x6C] rest with
          | .error fault => .error fault
          | .ok rest' => .ok (none, rest')
        else (r.map some).run (b :: rest)
    | [] => .error .truncated
  shrinks := by
    intro s rest a h
    split at h
    · rename_i heq
      have hle := heq ▸ length_skipBlanks_le s
      split at h
      · split at h
        · cases h
        · rename_i hword
          obtain ⟨-, rfl⟩ := Prod.mk.inj (Except.ok.inj h)
          exact Nat.le_trans (Nat.le_succ_of_le (length_le_of_skipWord hword)) hle
      · exact Nat.le_trans ((r.map some).shrinks h) hle
    · cases h

/-! ### Objects and arrays -/

/-- What stands before an item, of which the first octet is known: nothing before the first
item, a comma and blanks before the others. -/
def itemStart (first : Bool) (s : List UInt8) : Except Fault (List UInt8) :=
  if first then .ok s
  else
    match s with
    | b :: rest => if b = comma then .ok (skipBlanks rest) else .error .malformed
    | [] => .error .truncated

/-- Reads the name of a member. -/
def readName : List UInt8 → Part String
  | [] => .error .truncated
  | b :: rest => if b = quote then readText rest else .error .malformed

/-- Reads a member; its name decides how its value changes what was read before. -/
def readMember (onName : σ → String → Except Fault (Reader σ)) (first : Bool) (st : σ)
    (s : List UInt8) : Part σ :=
  match itemStart first s with
  | .error fault => .error fault
  | .ok s₁ =>
      match readName s₁ with
      | .error fault => .error fault
      | .ok (name, s₂) =>
          match onName st name with
          | .error fault => .error fault
          | .ok r =>
              match skipColon s₂ with
              | .error fault => .error fault
              | .ok s₃ => r.run s₃

/-- Reads an item of an array. -/
def readItem (r : Reader α) (first : Bool) (s : List UInt8) : Part α :=
  match itemStart first s with
  | .error fault => .error fault
  | .ok s₁ => r.run s₁

theorem length_le_of_itemStart {first : Bool} {s rest : List UInt8}
    (h : itemStart first s = .ok rest) : rest.length ≤ s.length := by
  unfold itemStart at h
  split at h
  · obtain rfl := Except.ok.inj h
    exact Nat.le_refl _
  · split at h
    · split at h
      · obtain rfl := Except.ok.inj h
        exact Nat.le_succ_of_le (length_skipBlanks_le _)
      · cases h
    · cases h

theorem length_lt_of_readName {s rest : List UInt8} {name : String}
    (h : readName s = .ok (name, rest)) : rest.length < s.length := by
  unfold readName at h
  split at h
  · cases h
  · split at h
    · exact Nat.lt_succ_of_lt (length_lt_of_readText h)
    · cases h

theorem length_lt_of_readMember {onName : σ → String → Except Fault (Reader σ)} {first : Bool}
    {st st' : σ} {s rest : List UInt8} (h : readMember onName first st s = .ok (st', rest)) :
    rest.length < s.length := by
  unfold readMember at h
  split at h
  · cases h
  · rename_i hstart
    split at h
    · cases h
    · rename_i hname
      split at h
      · cases h
      · split at h
        · cases h
        · rename_i hcolon
          have h₁ := length_le_of_itemStart hstart
          have h₂ := length_lt_of_readName hname
          have h₃ := length_lt_of_skipColon hcolon
          have h₄ := Reader.shrinks _ h
          omega

theorem length_le_of_readItem {r : Reader α} {first : Bool} {a : α} {s rest : List UInt8}
    (h : readItem r first s = .ok (a, rest)) : rest.length ≤ s.length := by
  unfold readItem at h
  split at h
  · cases h
  · rename_i hstart
    exact Nat.le_trans (r.shrinks h) (length_le_of_itemStart hstart)

/-- Reads the members of an object up to its end, behind the opening brace. -/
def membersFrom (onName : σ → String → Except Fault (Reader σ)) (first : Bool) (st : σ)
    (s : List UInt8) : Part σ :=
  match _h : skipBlanks s with
  | [] => .error .truncated
  | b :: rest =>
      if b = closeObject then .ok (st, rest)
      else
        match _hm : readMember onName first st (b :: rest) with
        | .error fault => .error fault
        | .ok (st', rest') => membersFrom onName false st' rest'
termination_by s.length
decreasing_by
  exact Nat.lt_of_lt_of_le (length_lt_of_readMember _hm) (_h ▸ length_skipBlanks_le s)

/-- Reads the items of an array up to its end, behind the opening bracket and those items that
were read before, which are kept in reverse.  An item takes up a part of the text; one that
did not would be malformed. -/
def itemsFrom (r : Reader α) (first : Bool) (before : List α) (s : List UInt8) :
    Part (List α) :=
  match _h : skipBlanks s with
  | [] => .error .truncated
  | b :: rest =>
      if b = closeArray then .ok (before.reverse, rest)
      else
        match readItem r first (b :: rest) with
        | .error fault => .error fault
        | .ok (a, rest') =>
            if _hlt : rest'.length < (b :: rest).length then
              itemsFrom r false (a :: before) rest'
            else .error .malformed
termination_by s.length
decreasing_by
  exact Nat.lt_of_lt_of_le _hlt (_h ▸ length_skipBlanks_le s)

theorem length_le_of_membersFrom {onName : σ → String → Except Fault (Reader σ)} {first : Bool}
    {st st' : σ} {s rest : List UInt8} (h : membersFrom onName first st s = .ok (st', rest)) :
    rest.length ≤ s.length := by
  fun_induction membersFrom onName first st s with
  | case1 => cases h
  | case2 =>
      rename_i hblank
      obtain ⟨-, rfl⟩ := Prod.mk.inj (Except.ok.inj h)
      exact Nat.le_of_lt (length_lt_of_skipBlanks hblank)
  | case3 => cases h
  | case4 =>
      rename_i hblank _ _ _ hmember ih
      exact Nat.le_trans (ih h) (Nat.le_of_lt
        (Nat.lt_of_lt_of_le (length_lt_of_readMember hmember) (hblank ▸ length_skipBlanks_le _)))

theorem length_le_of_itemsFrom {r : Reader α} {first : Bool} {before items : List α}
    {s rest : List UInt8} (h : itemsFrom r first before s = .ok (items, rest)) :
    rest.length ≤ s.length := by
  fun_induction itemsFrom r first before s with
  | case1 => cases h
  | case2 =>
      rename_i hblank
      obtain ⟨-, rfl⟩ := Prod.mk.inj (Except.ok.inj h)
      exact Nat.le_of_lt (length_lt_of_skipBlanks hblank)
  | case3 => cases h
  | case4 =>
      rename_i hblank _ _ _ _ hlt ih
      exact Nat.le_trans (ih h) (Nat.le_of_lt
        (Nat.lt_of_lt_of_le hlt (hblank ▸ length_skipBlanks_le _)))
  | case5 => cases h

/-- Reads an object whose members change a value one after the other. -/
def object (onName : σ → String → Except Fault (Reader σ)) (start : σ) : Reader σ :=
  fromOctet
    (fun b rest =>
      if b = openObject then membersFrom onName true start rest else .error (wrongShape b rest))
    (by
      intro b s rest a h
      split at h
      · exact Nat.le_succ_of_le (length_le_of_membersFrom h)
      · cases h)

/-- Reads an object with values of one shape under names of any kind; of members with one name
the last counts. -/
def mapOf (r : Reader α) : Reader (KeyMap α) :=
  object (fun m name => .ok (r.map (m.insert name))) .empty

/-- Reads an array with items of one shape. -/
def listOf (r : Reader α) : Reader (List α) :=
  fromOctet
    (fun b rest =>
      if b = openArray then itemsFrom r true [] rest else .error (wrongShape b rest))
    (by
      intro b s rest a h
      split at h
      · exact Nat.le_succ_of_le (length_le_of_itemsFrom h)
      · cases h)

/-! ### Records -/

/-- A field of a record: whether it was read before, and how it is read. -/
structure Field (σ : Type) where
  name : String
  isRead : σ → Bool
  read : σ → Reader σ

/-- How a member of an object changes a record. -/
def onField (fields : List (Field σ)) (st : σ) (name : String) : Except Fault (Reader σ) :=
  match fields.find? (fun f => f.name = name) with
  | none => .ok (skipping st)
  | some f => if f.isRead st then .error .mismatched else .ok (f.read st)

/-- Reads the fields of a record from an array, behind its opening bracket. -/
def fieldsFrom (first : Bool) : List (Field σ) → σ → List UInt8 → Part σ
  | [], st, s =>
      match skipBlanks s with
      | [] => .error .truncated
      | b :: rest => if b = closeArray then .ok (st, rest) else .error .malformed
  | f :: fields, st, s =>
      match skipBlanks s with
      | [] => .error .truncated
      | b :: rest =>
          if b = closeArray then .ok (st, rest)
          else
            match readItem (f.read st) first (b :: rest) with
            | .error fault => .error fault
            | .ok (st', rest') => fieldsFrom false fields st' rest'

theorem length_le_of_fieldsFrom {first : Bool} {fields : List (Field σ)} {st st' : σ}
    {s rest : List UInt8} (h : fieldsFrom first fields st s = .ok (st', rest)) :
    rest.length ≤ s.length := by
  induction fields generalizing first st s with
  | nil =>
      have hle := length_skipBlanks_le s
      unfold fieldsFrom at h
      split at h
      · cases h
      · rename_i heq
        rw [heq] at hle
        split at h
        · obtain ⟨-, rfl⟩ := Prod.mk.inj (Except.ok.inj h)
          exact Nat.le_of_succ_le hle
        · cases h
  | cons f fields ih =>
      have hle := length_skipBlanks_le s
      unfold fieldsFrom at h
      split at h
      · cases h
      · rename_i heq
        rw [heq] at hle
        split at h
        · obtain ⟨-, rfl⟩ := Prod.mk.inj (Except.ok.inj h)
          exact Nat.le_of_succ_le hle
        · split at h
          · cases h
          · rename_i hitem
            exact Nat.le_trans (ih h) (Nat.le_trans (length_le_of_readItem hitem) hle)

/-- Reads a record from an object or from an array. -/
def record (fields : List (Field σ)) (start : σ) : Reader σ :=
  fromOctet
    (fun b rest =>
      if b = openObject then membersFrom (onField fields) true start rest
      else if b = openArray then fieldsFrom true fields start rest
      else .error (wrongShape b rest))
    (by
      intro b s rest a h
      split at h
      · exact Nat.le_succ_of_le (length_le_of_membersFrom h)
      · split at h
        · exact Nat.le_succ_of_le (length_le_of_fieldsFrom h)
        · cases h)

/-- Reads a value that makes up the whole text but for blanks. -/
def readWhole (r : Reader α) (s : List UInt8) : Except Fault α :=
  match r.run s with
  | .error fault => .error fault
  | .ok (a, rest) => if skipBlanks rest = [] then .ok a else .error .malformed

end Reader

end Json
end ServingAdmin
