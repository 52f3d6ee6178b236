import ServingAdmin.Proofs.Json.Grammar

/-!
# Values are passed over

What is passed over is exactly one value, whatever its shape and depth, if it is delimited by what
comes behind it (`skipValue_append`).  The open brackets around a value make no difference to the
walk over it (`Passes`): behind the value the walk goes on where it stood before, and so it goes
from item to item and from member to member up to the closing bracket.
-/

namespace ServingAdmin
namespace Json

open Octet

variable {b : UInt8} {s rest : List UInt8}

/-! ### Numbers -/

theorem Delimited.not_number
    (h : Delimited (b :: rest)) :
    isDigit b = false ∧ b ≠ point ∧ isExponentMark b = false := by
  rcases h b rfl with hblank | rfl | rfl | rfl
  · simp only [isBlank, Bool.or_eq_true, beq_iff_eq] at hblank
    rcases hblank with ((rfl | rfl) | rfl) | rfl <;> decide
  · decide
  · decide
  · decide

theorem startsWithDigit_of_delimited
    (h : Delimited rest) :
    startsWithDigit rest = false := by
  cases rest with
  | nil => rfl
  | cons b rest => exact h.not_number.1

theorem startsWithDigit_exponent
    {exponent : List UInt8}
    (h : IsExponent exponent)
    (hrest : Delimited rest) :
    startsWithDigit (exponent ++ rest) = false := by
  cases h with
  | absent => exact startsWithDigit_of_delimited hrest
  | digits hmark =>
      simp only [isExponentMark, Bool.or_eq_true, beq_iff_eq] at hmark
      rcases hmark with rfl | rfl <;> rfl

theorem startsWithDigit_fraction
    {fraction exponent : List UInt8}
    (hfraction : IsFraction fraction)
    (hexponent : IsExponent exponent)
    (hrest : Delimited rest) :
    startsWithDigit (fraction ++ (exponent ++ rest)) = false := by
  cases hfraction with
  | absent =>
      rw [List.nil_append]
      exact startsWithDigit_exponent hexponent hrest
  | digits => rfl

theorem dropWhile_digits
    (hs : ∀ d ∈ s, isDigit d = true)
    (hrest : startsWithDigit rest = false) :
    (s ++ rest).dropWhile isDigit = rest := by
  rw [List.dropWhile_append_of_pos hs]
  cases rest with
  | nil => rfl
  | cons b rest => rw [List.dropWhile_cons_of_neg (by simpa [startsWithDigit] using hrest)]

theorem startsWithDigit_append
    (hs : IsDigits s)
    (rest : List UInt8) :
    startsWithDigit (s ++ rest) = true := by
  obtain ⟨d, digits, rfl⟩ := List.exists_cons_of_ne_nil hs.nonempty
  exact hs.digits d List.mem_cons_self

theorem splitExponentSign_append
    {sign : List UInt8}
    (hsign : sign ∈ [[], [plus], [minus]])
    (hs : IsDigits s)
    (rest : List UInt8) :
    (splitExponentSign (sign ++ (s ++ rest))).2 = s ++ rest := by
  simp only [List.mem_cons, List.not_mem_nil, or_false] at hsign
  rcases hsign with rfl | rfl | rfl
  · obtain ⟨d, digits, rfl⟩ := List.exists_cons_of_ne_nil hs.nonempty
    have hd := hs.digits d List.mem_cons_self
    have hminus : d ≠ minus := by
      rintro rfl
      exact absurd hd (by decide)
    have hplus : d ≠ plus := by
      rintro rfl
      exact absurd hd (by decide)
    simp only [List.nil_append, List.cons_append, splitExponentSign, if_neg hminus, if_neg hplus]
  · rfl
  · rfl

theorem skipExponentPart_append
    {exponent : List UInt8}
    (h : IsExponent exponent)
    (hrest : Delimited rest) :
    skipExponentPart (exponent ++ rest) = .ok rest := by
  cases h with
  | absent =>
      cases rest with
      | nil => rfl
      | cons b rest => simp [skipExponentPart, hrest.not_number.2.2]
  | @digits mark sign s hmark hsign hs =>
      have hdigits := startsWithDigit_append hs rest
      have hdrop := dropWhile_digits hs.digits (startsWithDigit_of_delimited hrest)
      rw [List.cons_append, List.append_assoc, skipExponentPart, if_pos hmark, skipExponent,
        splitExponentSign_append hsign hs]
      simp only [hdigits, hdrop, if_true]

theorem skipFractionPart_append
    {fraction exponent : List UInt8}
    (hfraction : IsFraction fraction)
    (hexponent : IsExponent exponent)
    (hrest : Delimited rest) :
    skipFractionPart (fraction ++ (exponent ++ rest)) = .ok rest := by
  have hskip := skipExponentPart_append hexponent hrest
  cases hfraction with
  | absent =>
      have hpoint : ∀ c ∈ (exponent ++ rest).head?, c ≠ point := by
        cases hexponent with
        | absent =>
            cases rest with
            | nil => simp
            | cons b rest =>
                rintro c ⟨⟩
                exact hrest.not_number.2.1
        | digits hmark =>
            rintro c ⟨⟩ rfl
            exact absurd hmark (by decide)
      rw [List.nil_append, skipFractionPart.eq_def]
      split
      · rename_i hcons
        rw [if_neg (hpoint _ (by rw [hcons]; rfl)), hskip]
      · rename_i hnil
        rw [← hskip, hnil]
        rfl
  | @digits s hs =>
      rw [List.cons_append, skipFractionPart, if_pos rfl, if_pos (startsWithDigit_append hs _),
        dropWhile_digits hs.digits (startsWithDigit_exponent hexponent hrest), hskip]

theorem skipNumber_append
    (h : IsUnsigned s)
    (hrest : Delimited rest) :
    skipNumber (s ++ rest) = .ok rest := by
  obtain ⟨hwhole, hfraction, hexponent⟩ := h
  have hstop := startsWithDigit_fraction hfraction hexponent hrest
  have hskip := skipFractionPart_append hfraction hexponent hrest
  rw [List.append_assoc, List.append_assoc]
  cases hwhole with
  | zero => simp only [List.singleton_append, skipNumber, if_true, hstop, Bool.false_eq_true,
      if_false, hskip]
  | digits hb hzero hs =>
      rw [List.cons_append, skipNumber, if_neg hzero, if_pos hb, dropWhile_digits hs hstop, hskip]

/-! ### Strings and words -/

theorem skipString_backslash
    (h : skipEscape s = .ok rest) :
    skipString (backslash :: s) = skipString rest := by
  rw [skipString, if_neg (by decide), if_pos rfl]
  split
  · rename_i hfault
    rw [h] at hfault
    cases hfault
  · rename_i hskip
    rw [h] at hskip
    cases hskip
    rfl

theorem readUnit_digits
    {a b c d : UInt8}
    (h : ∀ x ∈ [a, b, c, d], (hexValue? x).isSome = true) :
    ∃ n, ∀ rest, readUnit (a :: b :: c :: d :: rest) = .ok (n, rest) := by
  simp only [List.forall_mem_cons, List.not_mem_nil, false_implies, implies_true, and_true,
    Option.isSome_iff_exists] at h
  obtain ⟨⟨a', ha⟩, ⟨b', hb⟩, ⟨c', hc⟩, d', hd⟩ := h
  refine ⟨((a' * 16 + b') * 16 + c') * 16 + d', fun rest => ?_⟩
  simp only [readUnit, ha, hb, hc, hd]

theorem escaped?_of_letter
    (h : b ∈ escapeLetters) :
    ∃ octet, escaped? b = some octet := by
  have hall : escapeLetters.all (fun b => (escaped? b).isSome) = true := by
    decide
  exact Option.isSome_iff_exists.mp (List.all_eq_true.mp hall b h)

theorem skipString_append
    (h : IsSpelling s)
    (rest : List UInt8) :
    skipString (s ++ quote :: rest) = .ok rest := by
  induction h with
  | nil => rw [List.nil_append, skipString, if_pos rfl]
  | plain hquote hbackslash hcontrol _ ih =>
      rw [List.cons_append, skipString, if_neg hquote, if_neg hbackslash, hcontrol,
        if_neg Bool.false_ne_true, ih]
  | letter hb _ ih =>
      obtain ⟨octet, hoctet⟩ := escaped?_of_letter hb
      rw [List.cons_append, List.cons_append, ← ih]
      exact skipString_backslash (by simp only [skipEscape, hoctet])
  | @numbered a b c d s hdigits _ ih =>
      obtain ⟨n, hn⟩ := readUnit_digits hdigits
      have hescape : skipEscape (0x75 :: a :: b :: c :: d :: (s ++ quote :: rest)) =
          .ok (s ++ quote :: rest) := by
        simp only [skipEscape, hn]
        rfl
      exact (skipString_backslash hescape).trans ih

theorem skipScalar_append
    (h : IsScalar (b :: s))
    (hrest : Delimited rest) :
    skipScalar b (s ++ rest) = .ok rest := by
  cases h with
  | nullWord => rfl
  | trueWord => rfl
  | falseWord => rfl
  | number hs =>
      obtain ⟨d, t, hdt, hd⟩ := hs.head
      obtain ⟨rfl, rfl⟩ := List.cons.inj hdt
      obtain ⟨-, hminus, -, -, -, -, hword⟩ := isBlank_of_isDigit hd
      have hskip := skipNumber_append hs hrest
      simp only [skipScalar, hword, if_neg hminus, hd, if_true]
      exact hskip
  | negative hs => exact skipNumber_append hs hrest
  | string hs =>
      rw [List.append_assoc]
      exact skipString_append hs rest

/-! ### The walk -/

/-- The walk from a place on, which ends where no bracket is open behind a value. -/
def resume : Walk → List UInt8 → Except Fault (List UInt8)
  | ([], .afterItem), s => .ok s
  | walk, s => walkOn walk s

theorem walkOn_eq
    (walk : Walk)
    (s : List UInt8) :
    walkOn walk s =
      match skipBlanks s with
      | [] => .error .truncated
      | b :: rest =>
          match step walk b rest with
          | .error fault => .error fault
          | .ok (walk', rest') => resume walk' rest' := by
  rw [walkOn]
  split
  · rename_i heq
    rw [heq]
  · rename_i heq
    rw [heq]
    dsimp only
    split
    · rename_i hstep
      rw [hstep]
    · rename_i hstep
      rw [hstep]
      rfl
    · rename_i hne hstep
      rw [hstep]
      dsimp only
      rw [resume]
      exact hne

theorem walkOn_of_step
    {walk walk' : Walk}
    {rest' : List UInt8}
    (hs : skipBlanks s = b :: rest)
    (hstep : step walk b rest = .ok (walk', rest')) :
    walkOn walk s = resume walk' rest' := by
  rw [walkOn_eq, hs]
  dsimp only
  rw [hstep]

/-- The walk from a value on passes over the value, whatever brackets are open. -/
def Passes
    (v : List UInt8) :
    Prop :=
  ∀ open_ blanks rest, Blanks blanks → Delimited rest →
    walkOn (open_, .value) (blanks ++ (v ++ rest)) = resume (open_, .afterItem) rest

theorem passes_scalar
    (h : IsScalar s) :
    Passes s := by
  intro open_ blanks rest hblanks hrest
  obtain ⟨b, t, rfl, hblank, harray, hobject, -, -⟩ := h.head
  refine walkOn_of_step (skipBlanks_append_cons hblanks hblank _) ?_
  change stepValue open_ b (t ++ rest) = _
  rw [stepValue, if_neg harray, if_neg hobject, skipScalar_append h hrest]

/-! ### Brackets -/

/-- Inside brackets the walk goes from a piece on to the item in it. -/
structure Enters
    (k : Bracket)
    (piece : List UInt8)
    (i : Item) :
    Prop where
  first : ∀ open_ blanks rest, Blanks blanks →
    walkOn (k :: open_, .opened) (blanks ++ (piece ++ rest)) =
      walkOn (k :: open_, .value) (i.text ++ rest)
  next : ∀ open_ blanks rest, Blanks blanks →
    walkOn (k :: open_, .afterItem) (blanks ++ comma :: (piece ++ rest)) =
      walkOn (k :: open_, .value) (i.text ++ rest)

theorem enters_item
    {i : Item}
    (h : i.Framed)
    (hvalue : IsValue i.value) :
    Enters .array i.text i := by
  obtain ⟨b, t, hv, hblank, hclose⟩ := hvalue.head
  have hcomma : isBlank comma = false := by
    decide
  refine ⟨fun open_ blanks rest hblanks => ?_, fun open_ blanks rest hblanks => ?_⟩
  · have hskip : skipBlanks (i.text ++ rest) = b :: (t ++ (i.behind ++ rest)) := by
      rw [Item.text, hv, List.append_assoc, List.append_assoc]
      exact skipBlanks_append_cons h.before hblank _
    have hstep : step (.array :: open_, .opened) b (t ++ (i.behind ++ rest)) =
        step (.array :: open_, .value) b (t ++ (i.behind ++ rest)) := if_neg hclose
    rw [walkOn_eq, walkOn_eq, skipBlanks_append hblanks, hskip]
    dsimp only
    rw [hstep]
  · have hstep : step (.array :: open_, .afterItem) comma (i.text ++ rest) =
        .ok ((.array :: open_, .value), i.text ++ rest) := rfl
    exact walkOn_of_step (skipBlanks_append_cons hblanks hcomma _) hstep

theorem skipName_append
    {m : Member}
    (h : m.Framed)
    (rest : List UInt8) :
    skipName (m.named ++ rest) = .ok (m.item.text ++ rest) := by
  have hstring := skipString_append h.name (m.beforeColon ++ colon :: (m.item.text ++ rest))
  have hcolon : skipColon (m.beforeColon ++ colon :: (m.item.text ++ rest)) =
      .ok (m.item.text ++ rest) := by
    rw [skipColon, skipBlanks_append_cons h.beforeColon (by decide)]
    rfl
  simp only [Member.named, List.cons_append, List.append_assoc, skipName, if_true, hstring, hcolon]

theorem skipBlanks_member
    {m : Member}
    (h : m.Framed)
    (rest : List UInt8) :
    skipBlanks (m.text ++ rest) = m.named ++ rest := by
  rw [Member.text, List.append_assoc]
  exact skipBlanks_append_cons h.before (by decide) _

theorem enters_member
    {m : Member}
    (h : m.Framed) :
    Enters .object m.text m.item := by
  have hcomma : isBlank comma = false := by
    decide
  refine ⟨fun open_ blanks rest hblanks => ?_, fun open_ blanks rest hblanks => ?_⟩
  · obtain ⟨t, ht⟩ : ∃ t, m.named ++ rest = quote :: t := ⟨_, rfl⟩
    have hskip : skipBlanks (blanks ++ (m.text ++ rest)) = quote :: t := by
      rw [skipBlanks_append hblanks, skipBlanks_member h, ht]
    have hstep : step (.object :: open_, .opened) quote t =
        .ok ((.object :: open_, .value), m.item.text ++ rest) := by
      rw [step, if_neg (by decide), ← ht, skipName_append h]
    exact walkOn_of_step hskip hstep
  · have hstep : step (.object :: open_, .afterItem) comma (m.text ++ rest) =
        .ok ((.object :: open_, .value), m.item.text ++ rest) := by
      rw [step, if_pos rfl, stepItem, skipBlanks_member h, skipName_append h]
    exact walkOn_of_step (skipBlanks_append_cons hblanks hcomma _) hstep

variable {α : Type} {k : Bracket} {text : α → List UInt8} {item : α → Item} {pieces : List α}

theorem delimited_closing
    (k : Bracket)
    (rest : List UInt8) :
    Delimited (k.closing :: rest) := by
  cases k with
  | array => exact delimited_closeArray rest
  | object => exact delimited_closeObject rest

theorem step_closing
    (k : Bracket)
    (open_ : List Bracket)
    (rest : List UInt8) :
    step (k :: open_, .opened) k.closing rest = .ok ((open_, .afterItem), rest) ∧
      step (k :: open_, .afterItem) k.closing rest = .ok ((open_, .afterItem), rest) := by
  cases k <;> exact ⟨rfl, rfl⟩

/-- An item inside brackets is passed over, and what follows is a comma or the closing bracket. -/
theorem walkOn_item
    {i : Item}
    (h : i.Framed)
    (hpass : Passes i.value)
    (open_ : List Bracket)
    (rest : List UInt8) :
    walkOn (k :: open_, .value)
        (i.text ++ (joined false (pieces.map text) ++ k.closing :: rest)) =
      walkOn (k :: open_, .afterItem)
        (i.behind ++ (joined false (pieces.map text) ++ k.closing :: rest)) := by
  rw [Item.text, List.append_assoc, List.append_assoc]
  exact hpass _ _ _ h.before (.append h.behind (delimited_joined (delimited_closing k rest)))

/-- The pieces behind the first are passed over up to the closing bracket. -/
theorem walkOn_pieces
    (hframed : ∀ a ∈ pieces, (item a).Framed)
    (henter : ∀ a ∈ pieces, Enters k (text a) (item a))
    (hpass : ∀ a ∈ pieces, Passes (item a).value)
    (open_ : List Bracket)
    {blanks : List UInt8}
    (hblanks : Blanks blanks)
    (rest : List UInt8) :
    walkOn (k :: open_, .afterItem)
        (blanks ++ (joined false (pieces.map text) ++ k.closing :: rest)) =
      resume (open_, .afterItem) rest := by
  induction pieces generalizing blanks with
  | nil =>
      have hclosing : isBlank k.closing = false := by
        cases k <;> decide
      exact walkOn_of_step (skipBlanks_append_cons hblanks hclosing rest)
        (step_closing k open_ rest).2
  | cons a pieces ih =>
      obtain ⟨hi, hitems⟩ := List.forall_mem_cons.mp hframed
      obtain ⟨ha, hothers⟩ := List.forall_mem_cons.mp henter
      obtain ⟨hvalue, hvalues⟩ := List.forall_mem_cons.mp hpass
      rw [List.map_cons, joined, if_neg Bool.false_ne_true, List.append_assoc, List.append_assoc]
      exact (ha.next open_ blanks _ hblanks).trans
        ((walkOn_item hi hvalue open_ rest).trans (ih hitems hothers hvalues hi.behind))

/-- What stands between brackets is passed over. -/
theorem walkOn_opened
    (hframed : ∀ a ∈ pieces, (item a).Framed)
    (henter : ∀ a ∈ pieces, Enters k (text a) (item a))
    (hpass : ∀ a ∈ pieces, Passes (item a).value)
    (open_ : List Bracket)
    {blanks : List UInt8}
    (hblanks : Blanks blanks)
    (rest : List UInt8) :
    walkOn (k :: open_, .opened)
        (blanks ++ (joined true (pieces.map text) ++ k.closing :: rest)) =
      resume (open_, .afterItem) rest := by
  cases pieces with
  | nil =>
      have hclosing : isBlank k.closing = false := by
        cases k <;> decide
      exact walkOn_of_step (skipBlanks_append_cons hblanks hclosing rest)
        (step_closing k open_ rest).1
  | cons a pieces =>
      obtain ⟨hi, hitems⟩ := List.forall_mem_cons.mp hframed
      obtain ⟨ha, hothers⟩ := List.forall_mem_cons.mp henter
      obtain ⟨hvalue, hvalues⟩ := List.forall_mem_cons.mp hpass
      rw [List.map_cons, joined, if_pos rfl, List.nil_append, List.append_assoc]
      exact (ha.first open_ blanks _ hblanks).trans ((walkOn_item hi hvalue open_ rest).trans
        (walkOn_pieces hitems hothers hvalues open_ hi.behind rest))

/-- Every value is passed over, whatever its shape and depth. -/
theorem IsValue.passes
    {v : List UInt8}
    (h : IsValue v) :
    Passes v := by
  induction h with
  | scalar hs => exact passes_scalar hs
  | array hblanks hframed hvalues ih =>
      intro open_ front rest hfront hrest
      rw [arrayText_append, walkOn_of_step (skipBlanks_append_cons hfront (by decide) _) rfl]
      exact walkOn_opened hframed (fun i hi => enters_item (hframed i hi) (hvalues i hi)) ih open_
        hblanks rest
  | object hblanks hframed hvalues ih =>
      intro open_ front rest hfront hrest
      rw [objectText_append, walkOn_of_step (skipBlanks_append_cons hfront (by decide) _) rfl]
      exact walkOn_opened (fun m hm => (hframed m hm).item)
        (fun m hm => enters_member (hframed m hm)) ih open_ hblanks rest

/-- What is passed over in front of a delimiter is exactly one value. -/
theorem skipValue_append
    {v blanks : List UInt8}
    (h : IsValue v)
    (hblanks : Blanks blanks)
    (hrest : Delimited rest) :
    skipValue (blanks ++ (v ++ rest)) = .ok rest :=
  h.passes [] blanks rest hblanks hrest

end Json
end ServingAdmin
