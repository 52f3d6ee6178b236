import ServingAdmin.Proofs.Json.Skipping
import ServingAdmin.Proofs.Json.WrittenText

/-!
# Strings are read by themselves

What is read of a spelling depends on nothing but the spelling: whatever follows the string, the
same text is read, and what follows is left over (`readText_spelling`).  Only of an escape that
names the first half of a pair is the text behind it looked at, and there the spelling has another
escape or the string cannot be read.
-/

namespace ServingAdmin
namespace Json

open Octet

variable {rest : List UInt8}

/-! ### Escapes -/

/-- What is read stands at the front of a spelling, whatever follows the string. -/
structure ReadsFront
    {α : Type}
    (read : List UInt8 → Part α)
    (s : List UInt8)
    (a : α)
    (s' : List UInt8) :
    Prop where
  spelling : IsSpelling s'
  shorter : s'.length < s.length
  reads : ∀ rest, read (s ++ quote :: rest) = .ok (a, s' ++ quote :: rest)

theorem readsFront_unit
    {a b c d : UInt8}
    {s : List UInt8}
    (hdigits : ∀ x ∈ [a, b, c, d], (hexValue? x).isSome = true)
    (hs : IsSpelling s) :
    ∃ n, ReadsFront readUnit (a :: b :: c :: d :: s) n s := by
  obtain ⟨n, hn⟩ := readUnit_digits hdigits
  exact ⟨n, hs, by simp only [List.length_cons]; omega, fun rest => hn _⟩

theorem readLowUnit_spelling
    {s t : List UInt8}
    {low : Nat}
    (h : IsSpelling s)
    (hread : readLowUnit (s ++ quote :: rest) = .ok (low, t)) :
    ∃ s', ReadsFront readLowUnit s low s' := by
  cases h with
  | nil => cases hread
  | @plain b s hquote hbackslash =>
      have hfault : readLowUnit (b :: s ++ quote :: rest) = .error .malformed := by
        simp only [List.cons_append, readLowUnit, ne_eq, hbackslash, not_false_iff, if_true]
      rw [hfault] at hread
      cases hread
  | @letter b s hb =>
      have hnumbered : b ≠ 0x75 := by
        rintro rfl
        exact absurd hb (by decide)
      have hfault : readLowUnit (backslash :: b :: s ++ quote :: rest) = .error .malformed := by
        simp only [List.cons_append, readLowUnit, ne_eq, not_true, if_false, hnumbered,
          not_false_iff, if_true]
      rw [hfault] at hread
      cases hread
  | @numbered a b c d s hdigits hs =>
      obtain ⟨n, hn⟩ := readsFront_unit hdigits hs
      have hunit : ∀ rest,
          readLowUnit (backslash :: 0x75 :: a :: b :: c :: d :: s ++ quote :: rest) =
            if n < 0xDC00 ∨ 0xDFFF < n then .error .malformed else .ok (n, s ++ quote :: rest) := by
        intro rest
        have hreads := hn.reads rest
        simp only [List.cons_append] at hreads
        simp only [List.cons_append, readLowUnit, ne_eq, not_true, if_false, hreads]
      rw [hunit] at hread
      split at hread
      · cases hread
      · rename_i hrange
        obtain ⟨rfl, -⟩ := Prod.mk.inj (Except.ok.inj hread)
        refine ⟨s, hs, ?_, fun rest => (hunit rest).trans (if_neg hrange)⟩
        simp only [List.length_cons]
        omega

theorem readNumbered_spelling
    {a b c d : UInt8}
    {s t octets : List UInt8}
    (hdigits : ∀ x ∈ [a, b, c, d], (hexValue? x).isSome = true)
    (hs : IsSpelling s)
    (hread : readNumbered (a :: b :: c :: d :: s ++ quote :: rest) = .ok (octets, t)) :
    ∃ s', ReadsFront readNumbered (a :: b :: c :: d :: s) octets s' := by
  obtain ⟨n, hn⟩ := readsFront_unit hdigits hs
  rw [readNumbered, hn.reads] at hread
  dsimp only at hread
  split at hread
  · cases hread
  · rename_i hlow
    split at hread
    · rename_i hhigh
      split at hread
      · cases hread
      · rename_i low t' hlowUnit
        obtain ⟨rfl, -⟩ := Prod.mk.inj (Except.ok.inj hread)
        obtain ⟨s', hs'⟩ := readLowUnit_spelling hs hlowUnit
        refine ⟨s', hs'.spelling, Nat.lt_trans hs'.shorter hn.shorter, fun rest => ?_⟩
        rw [readNumbered, hn.reads]
        dsimp only
        rw [if_neg hlow, if_pos hhigh, hs'.reads]
    · rename_i hhigh
      obtain ⟨rfl, -⟩ := Prod.mk.inj (Except.ok.inj hread)
      refine ⟨s, hs, hn.shorter, fun rest => ?_⟩
      rw [readNumbered, hn.reads]
      dsimp only
      rw [if_neg hlow, if_neg hhigh]

theorem readEscape_spelling
    {s t octets : List UInt8}
    (h : IsSpelling (backslash :: s))
    (hread : readEscape (s ++ quote :: rest) = .ok (octets, t)) :
    ∃ s', ReadsFront readEscape s octets s' := by
  cases h with
  | plain _ hbackslash => exact absurd rfl hbackslash
  | @letter b s hb hs =>
      obtain ⟨octet, hoctet⟩ := escaped?_of_letter hb
      have hreads : ∀ rest, readEscape (b :: s ++ quote :: rest) =
          .ok ([octet], s ++ quote :: rest) :=
        fun rest => readEscape_of_escaped? hoctet _
      rw [hreads] at hread
      obtain ⟨rfl, -⟩ := Prod.mk.inj (Except.ok.inj hread)
      exact ⟨s, hs, Nat.lt_succ_self _, hreads⟩
  | @numbered a b c d s hdigits hs =>
      have hstep : ∀ rest, readEscape (0x75 :: a :: b :: c :: d :: s ++ quote :: rest) =
          readNumbered (a :: b :: c :: d :: s ++ quote :: rest) :=
        fun _ => rfl
      rw [hstep] at hread
      obtain ⟨s', hs'⟩ := readNumbered_spelling hdigits hs hread
      exact ⟨s', hs'.spelling, Nat.lt_succ_of_lt hs'.shorter,
        fun rest => (hstep rest).trans (hs'.reads rest)⟩

/-! ### Texts -/

theorem exists_readEscape
    {s t before octets : List UInt8}
    (h : readOctetsFrom before (backslash :: s) = .ok (octets, t)) :
    ∃ l rest, readEscape s = .ok (l, rest) := by
  rw [readOctetsFrom, if_neg (by decide), if_pos rfl] at h
  split at h
  · cases h
  · rename_i hread
    exact ⟨_, _, hread⟩

/-- What is read of a string does not depend on what follows it. -/
theorem readOctetsFrom_spelling
    {s before octets t : List UInt8}
    (h : IsSpelling s)
    (hread : readOctetsFrom before (s ++ quote :: rest) = .ok (octets, t))
    (rest' : List UInt8) :
    readOctetsFrom before (s ++ quote :: rest') = .ok (octets, rest') := by
  induction hn : s.length using Nat.strongRecOn generalizing s before with
  | ind n ih =>
  -- an escape may take up a pair of numbered escapes, so the induction is on the length
  have hescape : ∀ e, s = backslash :: e →
      readOctetsFrom before (s ++ quote :: rest') = .ok (octets, rest') := by
    rintro e rfl
    obtain ⟨l, t', hread'⟩ := exists_readEscape hread
    obtain ⟨s', hs'⟩ := readEscape_spelling h hread'
    have hstep : ∀ rest, readOctetsFrom before (backslash :: e ++ quote :: rest) =
        readOctetsFrom (l.reverse ++ before) (s' ++ quote :: rest) :=
      fun rest => readOctetsFrom_backslash (hs'.reads rest)
    rw [hstep] at hread ⊢
    exact ih s'.length (hn ▸ Nat.lt_succ_of_lt hs'.shorter) hs'.spelling hread rfl
  cases h with
  | nil =>
      rw [List.nil_append, readOctetsFrom, if_pos rfl] at hread ⊢
      obtain ⟨rfl, -⟩ := Prod.mk.inj (Except.ok.inj hread)
      rfl
  | @plain b s hquote hbackslash hcontrol hs =>
      have hstep : ∀ rest, readOctetsFrom before (b :: s ++ quote :: rest) =
          readOctetsFrom (b :: before) (s ++ quote :: rest) := by
        intro rest
        rw [List.cons_append, readOctetsFrom, if_neg hquote, if_neg hbackslash, hcontrol,
          if_neg Bool.false_ne_true]
      rw [hstep] at hread ⊢
      exact ih s.length (hn ▸ Nat.lt_succ_self _) hs hread rfl
  | letter => exact hescape _ rfl
  | numbered => exact hescape _ rfl

theorem readText_spelling
    {s t : List UInt8}
    {text : String}
    (h : IsSpelling s)
    (hread : readText (s ++ quote :: rest) = .ok (text, t))
    (rest' : List UInt8) :
    readText (s ++ quote :: rest') = .ok (text, rest') := by
  rw [readText] at hread
  split at hread
  · cases hread
  · rename_i hoctets
    split at hread
    · rename_i htext
      obtain ⟨rfl, -⟩ := Prod.mk.inj (Except.ok.inj hread)
      simp only [readText, readOctets, readOctetsFrom_spelling h hoctets rest', htext]
    · cases hread

end Json
end ServingAdmin
