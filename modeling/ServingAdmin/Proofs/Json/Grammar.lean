import ServingAdmin.Json.Reader

/-!
# The grammar of JSON texts

Words, numbers and strings are values, and so are arrays of items and objects of members, each of
which has a value in it (`IsValue`).  Blanks may stand around items, names and values.  What stands
between the quotes of a string is its spelling, of any octets but controls, with escapes.  A value
ends where a blank, a comma or a closing bracket follows, or nothing (`Delimited`): this matters for
numbers, which would otherwise go on.
-/

namespace ServingAdmin
namespace Json

open Octet

/-! ### Blanks -/

/-- Octets all of which are blank. -/
def Blanks
    (s : List UInt8) :
    Prop :=
  ∀ b ∈ s, isBlank b = true

instance : DecidablePred Blanks :=
  fun s => List.decidableBAll (fun b => isBlank b = true) s

theorem skipBlanks_cons
    {b : UInt8}
    (h : isBlank b = false)
    (rest : List UInt8) :
    skipBlanks (b :: rest) = b :: rest := by
  rw [skipBlanks, List.dropWhile_cons, h, if_neg Bool.false_ne_true]

theorem skipBlanks_append
    {blanks : List UInt8}
    (h : Blanks blanks)
    (rest : List UInt8) :
    skipBlanks (blanks ++ rest) = skipBlanks rest :=
  List.dropWhile_append_of_pos h

theorem skipBlanks_append_cons
    {blanks : List UInt8}
    {b : UInt8}
    (h : Blanks blanks)
    (hb : isBlank b = false)
    (rest : List UInt8) :
    skipBlanks (blanks ++ b :: rest) = b :: rest := by
  rw [skipBlanks_append h, skipBlanks_cons hb]

/-- A text at the front of which a value has ended. -/
def Delimited
    (rest : List UInt8) :
    Prop :=
  ∀ b ∈ rest.head?, isBlank b = true ∨ b = comma ∨ b = closeArray ∨ b = closeObject

theorem delimited_nil :
    Delimited [] := by
  simp [Delimited]

theorem delimited_comma
    (rest : List UInt8) :
    Delimited (comma :: rest) := by
  simp [Delimited]

theorem delimited_closeArray
    (rest : List UInt8) :
    Delimited (closeArray :: rest) := by
  simp [Delimited]

theorem delimited_closeObject
    (rest : List UInt8) :
    Delimited (closeObject :: rest) := by
  simp [Delimited]

theorem Delimited.append
    {blanks rest : List UInt8}
    (hblanks : Blanks blanks)
    (h : Delimited rest) :
    Delimited (blanks ++ rest) := by
  cases blanks with
  | nil => exact h
  | cons b blanks => simp [Delimited, hblanks b List.mem_cons_self]

/-! ### Numbers -/

/-- Decimal digits, of which there is at least one. -/
structure IsDigits
    (s : List UInt8) :
    Prop where
  nonempty : s ≠ []
  digits : ∀ b ∈ s, isDigit b = true

/-- The whole part of a number: a zero, or digits of which the first is not a zero. -/
inductive IsWhole : List UInt8 → Prop
  | zero : IsWhole [zero]
  | digits
      {b : UInt8}
      {s : List UInt8}
      (hb : isDigit b = true)
      (hzero : b ≠ Octet.zero)
      (hs : ∀ d ∈ s, isDigit d = true) :
      IsWhole (b :: s)

inductive IsFraction : List UInt8 → Prop
  | absent : IsFraction []
  | digits
      {s : List UInt8}
      (hs : IsDigits s) :
      IsFraction (point :: s)

inductive IsExponent : List UInt8 → Prop
  | absent : IsExponent []
  | digits
      {mark : UInt8}
      {sign s : List UInt8}
      (hmark : isExponentMark mark = true)
      (hsign : sign ∈ [[], [plus], [minus]])
      (hs : IsDigits s) :
      IsExponent (mark :: (sign ++ s))

/-- A number behind its sign. -/
inductive IsUnsigned : List UInt8 → Prop
  | parts
      {whole fraction exponent : List UInt8}
      (hwhole : IsWhole whole)
      (hfraction : IsFraction fraction)
      (hexponent : IsExponent exponent) :
      IsUnsigned (whole ++ (fraction ++ exponent))

/-! ### Strings -/

/-- The letters that make an escape behind a backslash. -/
def escapeLetters : List UInt8 :=
  [quote, backslash, 0x2F, 0x62, 0x66, 0x6E, 0x72, 0x74]

/-- What stands between the quotes of a string. -/
inductive IsSpelling : List UInt8 → Prop
  | nil : IsSpelling []
  | plain
      {b : UInt8}
      {s : List UInt8}
      (hquote : b ≠ quote)
      (hbackslash : b ≠ backslash)
      (hcontrol : isControl b = false)
      (hs : IsSpelling s) :
      IsSpelling (b :: s)
  | letter
      {b : UInt8}
      {s : List UInt8}
      (hb : b ∈ escapeLetters)
      (hs : IsSpelling s) :
      IsSpelling (backslash :: b :: s)
  | numbered
      {a b c d : UInt8}
      {s : List UInt8}
      (hdigits : ∀ x ∈ [a, b, c, d], (hexValue? x).isSome = true)
      (hs : IsSpelling s) :
      IsSpelling (backslash :: 0x75 :: a :: b :: c :: d :: s)

theorem IsSpelling.append
    {s t : List UInt8}
    (h : IsSpelling s)
    (ht : IsSpelling t) :
    IsSpelling (s ++ t) := by
  induction h with
  | nil => exact ht
  | plain hquote hbackslash hcontrol _ ih => exact .plain hquote hbackslash hcontrol ih
  | letter hb _ ih => exact .letter hb ih
  | numbered hdigits _ ih => exact .numbered hdigits ih

/-- Whether an octet stands for itself between quotes. -/
def isPlain
    (b : UInt8) :
    Bool :=
  b != quote && b != backslash && !isControl b

theorem isSpelling_of_plain
    {s : List UInt8}
    (h : s.all isPlain = true) :
    IsSpelling s := by
  induction s with
  | nil => exact .nil
  | cons b s ih =>
      simp only [List.all_cons, isPlain, Bool.and_eq_true, bne_iff_ne, ne_eq,
        Bool.not_eq_true'] at h
      obtain ⟨⟨⟨hquote, hbackslash⟩, hcontrol⟩, hs⟩ := h
      exact .plain hquote hbackslash hcontrol (ih hs)

/-! ### Values -/

/-- A value and the blanks around it. -/
structure Item where
  before : List UInt8
  value : List UInt8
  behind : List UInt8

/-- A name as it is spelled, an item, and the blanks before the name and the colon. -/
structure Member where
  before : List UInt8
  name : List UInt8
  beforeColon : List UInt8
  item : Item

def Item.text
    (i : Item) :
    List UInt8 :=
  i.before ++ (i.value ++ i.behind)

/-- A member from its name on. -/
def Member.named
    (m : Member) :
    List UInt8 :=
  quote :: (m.name ++ quote :: (m.beforeColon ++ colon :: m.item.text))

def Member.text
    (m : Member) :
    List UInt8 :=
  m.before ++ m.named

/-- An array of items; blanks may stand in it even if it has none. -/
def arrayText
    (blanks : List UInt8)
    (items : List Item) :
    List UInt8 :=
  openArray :: (blanks ++ ([comma].intercalate (items.map Item.text) ++ [closeArray]))

/-- An object of members; blanks may stand in it even if it has none. -/
def objectText
    (blanks : List UInt8)
    (members : List Member) :
    List UInt8 :=
  openObject :: (blanks ++ ([comma].intercalate (members.map Member.text) ++ [closeObject]))

/-- What stands around a value in an item is blank. -/
structure Item.Framed
    (i : Item) :
    Prop where
  before : Blanks i.before
  behind : Blanks i.behind

/-- A member is well-formed but for its value. -/
structure Member.Framed
    (m : Member) :
    Prop where
  before : Blanks m.before
  name : IsSpelling m.name
  beforeColon : Blanks m.beforeColon
  item : m.item.Framed

/-- A word, a number or a string. -/
inductive IsScalar : List UInt8 → Prop
  | nullWord : IsScalar [0x6E, 0x75, 0x6C, 0x6C]
  | trueWord : IsScalar [0x74, 0x72, 0x75, 0x65]
  | falseWord : IsScalar [0x66, 0x61, 0x6C, 0x73, 0x65]
  | number
      {s : List UInt8}
      (hs : IsUnsigned s) :
      IsScalar s
  | negative
      {s : List UInt8}
      (hs : IsUnsigned s) :
      IsScalar (minus :: s)
  | string
      {s : List UInt8}
      (hs : IsSpelling s) :
      IsScalar (quote :: (s ++ [quote]))

inductive IsValue : List UInt8 → Prop
  | scalar
      {s : List UInt8}
      (hs : IsScalar s) :
      IsValue s
  | array
      {blanks : List UInt8}
      {items : List Item}
      (hblanks : Blanks blanks)
      (hframed : ∀ i ∈ items, i.Framed)
      (hvalues : ∀ i ∈ items, IsValue i.value) :
      IsValue (arrayText blanks items)
  | object
      {blanks : List UInt8}
      {members : List Member}
      (hblanks : Blanks blanks)
      (hframed : ∀ m ∈ members, m.Framed)
      (hvalues : ∀ m ∈ members, IsValue m.item.value) :
      IsValue (objectText blanks members)

structure Item.WellFormed
    (i : Item) :
    Prop where
  framed : i.Framed
  value : IsValue i.value

structure Member.WellFormed
    (m : Member) :
    Prop where
  framed : m.Framed
  value : IsValue m.item.value

/-! ### Texts piece by piece -/

/-- Pieces with commas between them, behind others or not. -/
def joined
    (first : Bool) :
    List (List UInt8) → List UInt8
  | [] => []
  | piece :: pieces => (if first then [] else [comma]) ++ (piece ++ joined false pieces)

theorem intercalate_comma
    (pieces : List (List UInt8)) :
    [comma].intercalate pieces = joined true pieces := by
  induction pieces with
  | nil => rfl
  | cons piece pieces ih =>
      cases pieces with
      | nil => simp [joined]
      | cons next pieces =>
          rw [List.intercalate_cons_cons, ih]
          simp [joined]

theorem arrayText_append
    (blanks : List UInt8)
    (items : List Item)
    (rest : List UInt8) :
    arrayText blanks items ++ rest =
      openArray :: (blanks ++ (joined true (items.map Item.text) ++ closeArray :: rest)) := by
  simp [arrayText, intercalate_comma]

theorem objectText_append
    (blanks : List UInt8)
    (members : List Member)
    (rest : List UInt8) :
    objectText blanks members ++ rest =
      openObject :: (blanks ++ (joined true (members.map Member.text) ++ closeObject :: rest)) := by
  simp [objectText, intercalate_comma]

/-- Behind a piece comes a comma or what closes the brackets. -/
theorem delimited_joined
    {pieces : List (List UInt8)}
    {rest : List UInt8}
    (h : Delimited rest) :
    Delimited (joined false pieces ++ rest) := by
  cases pieces with
  | nil => exact h
  | cons piece pieces => exact delimited_comma _

/-! ### What a value begins with -/

theorem isBlank_of_isDigit
    {b : UInt8}
    (h : isDigit b = true) :
    isBlank b = false ∧ b ≠ minus ∧ b ≠ quote ∧ b ≠ openArray ∧ b ≠ openObject ∧ b ≠ closeArray ∧
      wordAfter? b = none := by
  have hne : ∀ c : UInt8, isDigit c = false → b ≠ c := by
    rintro c hc rfl
    rw [h] at hc
    cases hc
  refine ⟨?_, hne _ (by decide), hne _ (by decide), hne _ (by decide), hne _ (by decide),
    hne _ (by decide), ?_⟩
  · simp [isBlank, hne 0x20 (by decide), hne 0x0A (by decide), hne 0x09 (by decide),
      hne 0x0D (by decide)]
  · simp [wordAfter?, hne 0x6E (by decide), hne 0x74 (by decide), hne 0x66 (by decide)]

theorem IsUnsigned.head
    {s : List UInt8}
    (h : IsUnsigned s) :
    ∃ b t, s = b :: t ∧ isDigit b = true := by
  obtain ⟨hwhole, -, -⟩ := h
  cases hwhole with
  | zero => exact ⟨_, _, rfl, by decide⟩
  | digits hb => exact ⟨_, _, rfl, hb⟩

/-- A scalar begins with neither a blank nor a bracket. -/
theorem IsScalar.head
    {s : List UInt8}
    (h : IsScalar s) :
    ∃ b t, s = b :: t ∧ isBlank b = false ∧ b ≠ openArray ∧ b ≠ openObject ∧ b ≠ closeArray ∧
      (b = quote → ∃ spelling, IsSpelling spelling ∧ t = spelling ++ [quote]) := by
  cases h with
  | nullWord =>
      exact ⟨_, _, rfl, by decide, by decide, by decide, by decide, fun h => absurd h (by decide)⟩
  | trueWord =>
      exact ⟨_, _, rfl, by decide, by decide, by decide, by decide, fun h => absurd h (by decide)⟩
  | falseWord =>
      exact ⟨_, _, rfl, by decide, by decide, by decide, by decide, fun h => absurd h (by decide)⟩
  | number hs =>
      obtain ⟨b, t, rfl, hb⟩ := hs.head
      obtain ⟨hblank, -, hquote, hopenArray, hopenObject, hcloseArray, -⟩ := isBlank_of_isDigit hb
      exact ⟨b, t, rfl, hblank, hopenArray, hopenObject, hcloseArray, fun h => absurd h hquote⟩
  | negative =>
      exact ⟨_, _, rfl, by decide, by decide, by decide, by decide, fun h => absurd h (by decide)⟩
  | string hs =>
      exact ⟨_, _, rfl, by decide, by decide, by decide, by decide, fun _ => ⟨_, hs, rfl⟩⟩

theorem IsValue.head
    {v : List UInt8}
    (h : IsValue v) :
    ∃ b t, v = b :: t ∧ isBlank b = false ∧ b ≠ closeArray := by
  cases h with
  | scalar hs =>
      obtain ⟨b, t, rfl, hblank, -, -, hclose, -⟩ := hs.head
      exact ⟨b, t, rfl, hblank, hclose⟩
  | array => exact ⟨_, _, rfl, by decide, by decide⟩
  | object => exact ⟨_, _, rfl, by decide, by decide⟩

end Json
end ServingAdmin
