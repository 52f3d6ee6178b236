import Mathlib.Computability.RegularExpressions
import ServingAdmin.Proofs.Claim.Name
import ServingAdmin.Proofs.Text.Split

/-!
# The patterns of names

Names are given by two regular expressions: that of a label is `[a-z0-9]([-a-z0-9]*[a-z0-9])?`, and
that of a sequence of labels has it once, and behind that any number of times with a dot in front.
The languages of these expressions are those of the check, which reads a name in one pass: a text
matches the first exactly if it is a label, and the second exactly if all the pieces between its
dots are labels.

So the verdict on a claim depends on nothing but its labels and the lengths of its two names
(`check_iff_labels`).
-/

namespace ServingAdmin
namespace Claim

section Patterns

open RegularExpression (char star)

/-- The characters from one to another. -/
def charsFrom
    (first last : Char) :
    List Char :=
  (List.range' first.toNat (last.toNat + 1 - first.toNat)).map Char.ofNat

/-- Letters and digits, as they may stand at the ends of a label. -/
def outerChars : List Char :=
  charsFrom 'a' 'z' ++ charsFrom '0' '9'

/-- The characters inside a label. -/
def innerChars : List Char :=
  '-' :: outerChars

/-- One of some characters. -/
def oneOf : List Char → RegularExpression Char
  | [] => 0
  | c :: cs => char c + oneOf cs

/-- The pattern `[a-z0-9]([-a-z0-9]*[a-z0-9])?`. -/
def labelPattern : RegularExpression Char :=
  oneOf outerChars * (star (oneOf innerChars) * oneOf outerChars + 1)

/-- Labels with single dots between them. -/
def subdomainPattern : RegularExpression Char :=
  labelPattern * star (char '.' * labelPattern)

end Patterns

section Characters

theorem mem_charsFrom
    {first last c : Char}
    (hfirst : first.toNat ≤ c.toNat)
    (hlast : c.toNat ≤ last.toNat) :
    c ∈ charsFrom first last := by
  refine List.mem_map.mpr ⟨c.toNat, List.mem_range'_1.mpr ?_, Char.ofNat_toNat c⟩
  omega

theorem range_of_isLower
    {c : Char}
    (h : c.isLower = true) :
    'a'.toNat ≤ c.toNat ∧ c.toNat ≤ 'z'.toNat := by
  have hrange : (decide ('a'.val ≤ c.val) && decide (c.val ≤ 'z'.val)) = true := h
  rw [Bool.and_eq_true, decide_eq_true_eq, decide_eq_true_eq] at hrange
  exact hrange

theorem mem_outerChars_iff
    {c : Char} :
    c ∈ outerChars ↔ isAlnum c = true := by
  constructor
  · have hall : outerChars.all isAlnum = true := by
      decide
    exact List.all_eq_true.mp hall c
  · intro hc
    rw [isAlnum, Bool.or_eq_true] at hc
    refine List.mem_append.mpr (hc.imp (fun hlower => ?_) fun hdigit => ?_)
    · have hrange := range_of_isLower hlower
      exact mem_charsFrom hrange.1 hrange.2
    · have hrange := Char.isDigit_iff_toNat.mp hdigit
      exact mem_charsFrom hrange.1 hrange.2

theorem mem_innerChars_iff
    {c : Char} :
    c ∈ innerChars ↔ isAlnum c = true ∨ c = '-' := by
  rw [innerChars, List.mem_cons, mem_outerChars_iff, or_comm]

end Characters

section Languages

open RegularExpression (char star)

theorem mem_oneOf_iff
    {cs l : List Char} :
    l ∈ (oneOf cs).matches' ↔ ∃ c ∈ cs, l = [c] := by
  induction cs with
  | nil => simp [oneOf, Language.notMem_zero]
  | cons c cs ih =>
      rw [oneOf, RegularExpression.matches'_add, Language.mem_add, ih, List.exists_mem_cons_iff]
      rfl

/-- Any number of some characters. -/
theorem mem_star_oneOf_iff
    {cs l : List Char} :
    l ∈ (star (oneOf cs)).matches' ↔ ∀ c ∈ l, c ∈ cs := by
  rw [RegularExpression.matches'_star, Language.mem_kstar]
  constructor
  · rintro ⟨pieces, rfl, hpieces⟩ c hc
    obtain ⟨piece, hpiece, hmem⟩ := List.mem_flatten.mp hc
    obtain ⟨d, hd, rfl⟩ := mem_oneOf_iff.mp (hpieces piece hpiece)
    rwa [List.mem_singleton.mp hmem]
  · intro hall
    refine ⟨l.map fun c => [c], ?_, ?_⟩
    · rw [← List.flatMap_def, List.flatMap_singleton']
    · intro piece hpiece
      obtain ⟨c, hc, rfl⟩ := List.mem_map.mp hpiece
      exact mem_oneOf_iff.mpr ⟨c, hall c hc, rfl⟩

theorem label_singleton
    {c : Char}
    (hc : isAlnum c = true) :
    Label [c] := by
  have hne : c ≠ '-' := by
    rintro rfl
    cases hc
  exact ⟨List.cons_ne_nil _ _, by simp [hc], by simpa using hne, by simpa using hne⟩

/-- Between letters or digits there may be anything that can stand in a label. -/
theorem label_around
    {c d : Char}
    {middle : List Char}
    (hc : isAlnum c = true)
    (hmiddle : ∀ e ∈ middle, isAlnum e = true ∨ e = '-')
    (hd : isAlnum d = true) :
    Label (c :: (middle ++ [d])) := by
  refine ⟨List.cons_ne_nil _ _, ?_, (label_singleton hc).head, ?_⟩
  · rw [List.forall_mem_cons, List.forall_mem_append, List.forall_mem_singleton]
    exact ⟨Or.inl hc, hmiddle, Or.inl hd⟩
  · rw [← List.cons_append, List.getLast?_append]
    exact (label_singleton hd).last

/-- A character of a label that is not a hyphen is a letter or a digit. -/
theorem Label.isAlnum_of_ne
    {c : Char}
    {l : List Char}
    (h : Label l)
    (hmem : c ∈ l)
    (hne : c ≠ '-') :
    isAlnum c = true :=
  (h.chars c hmem).resolve_right hne

/-- A label is a letter or a digit, or begins with one and ends in another. -/
theorem Label.exists_ends
    {l : List Char}
    (h : Label l) :
    (∃ c, isAlnum c = true ∧ l = [c]) ∨
      ∃ c middle d, isAlnum c = true ∧ (∀ e ∈ middle, isAlnum e = true ∨ e = '-') ∧
        isAlnum d = true ∧ l = c :: (middle ++ [d]) := by
  obtain ⟨c, rest, rfl⟩ := List.exists_cons_of_ne_nil h.nonempty
  have hc : isAlnum c = true := h.isAlnum_of_ne List.mem_cons_self (by simpa using h.head)
  rcases List.eq_nil_or_concat rest with rfl | ⟨middle, d, rfl⟩
  · exact Or.inl ⟨c, hc, rfl⟩
  · rw [List.concat_eq_append] at h ⊢
    have hlast : d ≠ '-' := by
      rintro rfl
      refine h.last ?_
      rw [← List.cons_append, List.getLast?_concat]
    have hd : isAlnum d = true := h.isAlnum_of_ne (by simp) hlast
    exact Or.inr ⟨c, middle, d, hc, fun e he => h.chars e (by simp [he]), hd, rfl⟩

/-- A text matches the pattern of labels exactly if it is a label. -/
theorem mem_labelPattern_iff
    {l : List Char} :
    l ∈ labelPattern.matches' ↔ Label l := by
  simp only [labelPattern, RegularExpression.matches'_mul, RegularExpression.matches'_add,
    RegularExpression.matches'_epsilon, Language.mem_mul, Language.mem_add, Language.mem_one,
    mem_oneOf_iff, mem_star_oneOf_iff, mem_outerChars_iff, mem_innerChars_iff]
  constructor
  · rintro ⟨_, ⟨c, hc, rfl⟩, _, ⟨middle, hmiddle, _, ⟨d, hd, rfl⟩, rfl⟩ | rfl, rfl⟩
    · exact label_around hc hmiddle hd
    · exact label_singleton hc
  · intro h
    rcases h.exists_ends with ⟨c, hc, rfl⟩ | ⟨c, middle, d, hc, hmiddle, hd, rfl⟩
    · exact ⟨[c], ⟨c, hc, rfl⟩, [], Or.inr rfl, rfl⟩
    · exact ⟨[c], ⟨c, hc, rfl⟩, _, Or.inl ⟨middle, hmiddle, [d], ⟨d, hd, rfl⟩, rfl⟩, rfl⟩

theorem Label.noDot
    {l : List Char}
    (h : Label l) :
    '.' ∉ l := by
  intro hmem
  rcases h.chars '.' hmem with hdot | hdot <;> cases hdot

/-- Labels with a dot before each of them. -/
theorem mem_star_dotted_iff
    {l : List Char} :
    l ∈ (star (char '.' * labelPattern)).matches' ↔
      ∃ labels : List (List Char), (∀ label ∈ labels, Label label) ∧
        l = labels.flatMap ('.' :: ·) := by
  have hdotted : ∀ piece, piece ∈ (char '.' * labelPattern).matches' ↔
      ∃ label, Label label ∧ '.' :: label = piece := by
    intro piece
    rw [RegularExpression.matches'_mul, Language.mem_mul]
    constructor
    · rintro ⟨_, rfl, label, hlabel, rfl⟩
      exact ⟨label, mem_labelPattern_iff.mp hlabel, rfl⟩
    · rintro ⟨label, hlabel, rfl⟩
      exact ⟨['.'], rfl, label, mem_labelPattern_iff.mpr hlabel, rfl⟩
  rw [RegularExpression.matches'_star, Language.mem_kstar]
  simp only [hdotted]
  constructor
  · rintro ⟨pieces, rfl, hpieces⟩
    induction pieces with
    | nil => exact ⟨[], by simp, rfl⟩
    | cons piece pieces ih =>
        obtain ⟨⟨label, hlabel, rfl⟩, hrest⟩ := List.forall_mem_cons.mp hpieces
        obtain ⟨labels, hlabels, hflat⟩ := ih hrest
        refine ⟨label :: labels, List.forall_mem_cons.mpr ⟨hlabel, hlabels⟩, ?_⟩
        rw [List.flatten_cons, hflat, List.flatMap_cons]
  · rintro ⟨labels, hlabels, rfl⟩
    refine ⟨labels.map ('.' :: ·), List.flatMap_def, ?_⟩
    intro piece hpiece
    obtain ⟨label, hlabel, rfl⟩ := List.mem_map.mp hpiece
    exact ⟨label, hlabels label hlabel, rfl⟩

/-- A text matches the pattern of names exactly if all the pieces between its dots are labels. -/
theorem mem_subdomainPattern_iff
    {l : List Char} :
    l ∈ subdomainPattern.matches' ↔ ∀ label ∈ Text.splitAt '.' l, Label label := by
  rw [subdomainPattern, RegularExpression.matches'_mul, Language.mem_mul]
  constructor
  · rintro ⟨first, hfirst, rest, hrest, rfl⟩
    obtain ⟨labels, hlabels, rfl⟩ := mem_star_dotted_iff.mp hrest
    have hlabel := mem_labelPattern_iff.mp hfirst
    have hsplit := Text.splitAt_flatMap_cons fun label hmem => (hlabels label hmem).noDot
    rw [Text.splitAt_append_of_not_mem hlabel.noDot hsplit, List.append_nil]
    exact List.forall_mem_cons.mpr ⟨hlabel, hlabels⟩
  · intro h
    obtain ⟨first, labels, hsplit⟩ :=
      List.exists_cons_of_ne_nil (Text.splitAt_ne_nil '.' l)
    rw [hsplit, List.forall_mem_cons] at h
    refine ⟨first, mem_labelPattern_iff.mpr h.1, _, mem_star_dotted_iff.mpr ⟨labels, h.2, rfl⟩, ?_⟩
    rw [← Text.intercalate_cons, ← hsplit, Text.intercalate_splitAt]

end Languages

theorem isSubdomain_iff_matches
    (s : String) :
    isSubdomain s = true ↔ s.toList ∈ subdomainPattern.matches' := by
  rw [isSubdomain_iff, mem_subdomainPattern_iff]

theorem isLabel_iff_matches
    (s : String) :
    isLabel s = true ↔ s.toList ∈ labelPattern.matches' := by
  rw [isLabel_iff, mem_labelPattern_iff]

/-- A claim passes the check exactly if its name is made of labels with single dots between them and
its namespace is a label, neither of them too long.  Otherwise the name is at fault if it is no such
name, and else the namespace, which is missing or no label.  The texts that are taken for names and
for labels are those that match their patterns. -/
theorem check_iff_labels
    (name ns : String) :
    (check name ns = .ok () ↔ ProperName name ∧ ProperNamespace ns) ∧
      (check name ns = .error (.of (.rejectedClaim (.badName name))) ↔ ¬ ProperName name) ∧
      (check name ns = .error (.of (.rejectedClaim .missingNamespace)) ↔
        ProperName name ∧ ns = "") ∧
      (check name ns = .error (.of (.rejectedClaim (.badNamespace ns))) ↔
        ProperName name ∧ ns ≠ "" ∧ ¬ ProperNamespace ns) ∧
      (isSubdomain name = true ↔ name.toList ∈ subdomainPattern.matches') ∧
      (isLabel ns = true ↔ ns.toList ∈ labelPattern.matches') := by
  have hpatterns := And.intro (isSubdomain_iff_matches name) (isLabel_iff_matches ns)
  by_cases hname : ProperName name
  · by_cases hmissing : ns = ""
    · subst hmissing
      have hns : ¬ ProperNamespace "" := fun h => h.ne_empty rfl
      rw [check_of_missingNamespace hname]
      simp [hname, hns, Failure.of, hpatterns]
    · by_cases hns : ProperNamespace ns
      · rw [check_of_proper hname hns]
        simp [hname, hns, hmissing, hpatterns]
      · rw [check_of_badNamespace hname hmissing hns]
        simp [hname, hns, hmissing, Failure.of, hpatterns]
  · rw [check_of_badName hname]
    simp [hname, Failure.of, hpatterns]

end Claim
end ServingAdmin
