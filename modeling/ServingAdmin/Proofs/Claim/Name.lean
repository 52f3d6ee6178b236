import Mathlib.Logic.Basic
import ServingAdmin.Claim.Name
import ServingAdmin.Proofs.Text.Split

/-!
# What names are accepted

A label is a text of small letters, digits and hyphens with no hyphen at its ends (`Label`).  The
check of a name reads it character by character; in each of its states it accepts what may still
come of a label (`Continues`), and behind a dot a label of its own.  So a claim passes the check
exactly if the pieces between the dots of its name are labels, its namespace is one, and neither is
too long (`check_eq_ok_iff`); otherwise the first of them that is at fault is named.
-/

namespace ServingAdmin
namespace Claim

/-- A label of the domain name system. -/
structure Label
    (l : List Char) :
    Prop where
  nonempty : l ≠ []
  chars : ∀ c ∈ l, isAlnum c = true ∨ c = '-'
  head : l.head? ≠ some '-'
  last : l.getLast? ≠ some '-'

/-- A name that can be claimed: labels with single dots between them, in at most 253 octets. -/
structure ProperName
    (name : String) :
    Prop where
  labels : ∀ label ∈ Text.splitAt '.' name.toList, Label label
  size : name.utf8ByteSize ≤ 253

/-- A namespace that can claim a name: a single label of at most 63 octets. -/
structure ProperNamespace
    (ns : String) :
    Prop where
  label : Label ns.toList
  size : ns.utf8ByteSize ≤ 63

/-! ### The states of the check -/

/-- The rest of a label from a state on. -/
structure Continues
    (state : NameState)
    (l : List Char) :
    Prop where
  chars : ∀ c ∈ l, isAlnum c = true ∨ c = '-'
  last : l.getLast? ≠ some '-'
  nonempty : state ≠ .inLabel → l ≠ []
  head : state = .labelStart → l.head? ≠ some '-'

theorem continues_labelStart_iff
    (l : List Char) :
    Continues .labelStart l ↔ Label l := by
  constructor
  · intro h
    exact ⟨h.nonempty (by decide), h.chars, h.head rfl, h.last⟩
  · intro h
    exact ⟨h.chars, h.last, fun _ => h.nonempty, fun _ => h.head⟩

/-- Only inside a label nothing more has to come. -/
theorem continues_nil_iff
    (state : NameState) :
    Continues state [] ↔ state = .inLabel := by
  constructor
  · intro h
    exact Decidable.byContradiction fun hstate => h.nonempty hstate rfl
  · rintro rfl
    refine ⟨?_, ?_, ?_, ?_⟩ <;> simp

/-- A letter or a digit may begin the rest of a label in every state, and the label may end
there. -/
theorem continues_cons_of_isAlnum
    {state : NameState}
    {c : Char}
    (hc : isAlnum c = true)
    (l : List Char) :
    Continues state (c :: l) ↔ Continues .inLabel l := by
  have hne : c ≠ '-' := by
    rintro rfl
    cases hc
  have hlast : (c :: l).getLast? = some '-' ↔ l.getLast? = some '-' := by
    cases l with
    | nil => simpa using hne
    | cons d l => rw [List.getLast?_cons_cons]
  constructor
  · intro h
    exact ⟨fun d hd => h.chars d (List.mem_cons_of_mem _ hd), mt hlast.mpr h.last,
      fun hstate => absurd rfl hstate, fun hstate => by cases hstate⟩
  · intro h
    exact ⟨List.forall_mem_cons.mpr ⟨Or.inl hc, h.chars⟩, mt hlast.mp h.last,
      fun _ => List.cons_ne_nil c l, fun _ => by simpa using hne⟩

/-- A hyphen does not begin a label, and something has to come behind it. -/
theorem continues_hyphen_iff
    (state : NameState)
    (l : List Char) :
    Continues state ('-' :: l) ↔ state ≠ .labelStart ∧ Continues .afterHyphen l := by
  constructor
  · intro h
    have hl : l ≠ [] := by
      rintro rfl
      exact h.last rfl
    have hlast := List.getLast?_cons_of_ne_nil (x := '-') hl
    exact ⟨fun hstate => h.head hstate rfl, fun d hd => h.chars d (List.mem_cons_of_mem _ hd),
      hlast ▸ h.last, fun _ => hl, fun hstate => by cases hstate⟩
  · rintro ⟨hstate, h⟩
    have hl : l ≠ [] := h.nonempty (by decide)
    have hlast := List.getLast?_cons_of_ne_nil (x := '-') hl
    exact ⟨List.forall_mem_cons.mpr ⟨Or.inr rfl, h.chars⟩, hlast ▸ h.last,
      fun _ => List.cons_ne_nil _ l, fun hstart => absurd hstart hstate⟩

/-- What may come of a label is what the check goes on from. -/
theorem continues_cons_iff
    (state : NameState)
    (c : Char)
    (l : List Char) :
    Continues state (c :: l) ↔
      ∃ state', state.next? false c = some state' ∧ Continues state' l := by
  by_cases hc : isAlnum c = true
  · have hnext : state.next? false c = some .inLabel := by
      cases state <;> simp [NameState.next?, hc]
    rw [continues_cons_of_isAlnum hc, hnext]
    simp
  · rw [Bool.not_eq_true] at hc
    by_cases hhyphen : c = '-'
    · subst hhyphen
      rw [continues_hyphen_iff]
      cases state with
      | labelStart => simp [NameState.next?, hc]
      | inLabel => simp [NameState.next?, hc]
      | afterHyphen => simp [NameState.next?, hc]
    · have hnext : state.next? false c = none := by
        cases state <;> simp [NameState.next?, hc, hhyphen]
      rw [hnext]
      refine iff_of_false (fun h => ?_) (by simp)
      rcases h.chars c List.mem_cons_self with hc' | hc'
      · rw [hc] at hc'
        cases hc'
      · exact hhyphen hc'

theorem endsWell_cons_iff
    (dots : Bool)
    (state : NameState)
    (c : Char)
    (l : List Char) :
    endsWell dots state (c :: l) = true ↔
      ∃ state', state.next? dots c = some state' ∧ endsWell dots state' l = true := by
  rw [endsWell]
  cases state.next? dots c <;> simp

/-- Without dots the check accepts the rest of a label. -/
theorem endsWell_iff_continues
    (state : NameState)
    (l : List Char) :
    endsWell false state l = true ↔ Continues state l := by
  induction l generalizing state with
  | nil => rw [continues_nil_iff, endsWell, decide_eq_true_eq]
  | cons c l ih =>
      rw [endsWell_cons_iff, continues_cons_iff]
      exact exists_congr fun state' => and_congr_right fun _ => ih state'

theorem next?_of_ne_dot
    {c : Char}
    (hc : c ≠ '.')
    (state : NameState) :
    state.next? true c = state.next? false c := by
  cases state <;> simp [NameState.next?, hc]

/-- A dot ends a label, and another one begins. -/
theorem next?_dot_iff
    (state state' : NameState) :
    state.next? true '.' = some state' ↔ state = .inLabel ∧ .labelStart = state' := by
  have hdot : isAlnum '.' = false := by
    decide
  cases state <;> simp [NameState.next?, hdot]

/-- With dots the check accepts the rest of a label, and behind each dot a label. -/
theorem endsWell_iff_of_splitAt
    {state : NameState}
    {l piece : List Char}
    {pieces : List (List Char)}
    (h : Text.splitAt '.' l = piece :: pieces) :
    endsWell true state l = true ↔ Continues state piece ∧ ∀ other ∈ pieces, Label other := by
  induction l generalizing state piece pieces with
  | nil =>
      obtain ⟨rfl, rfl⟩ := List.cons.inj h
      rw [continues_nil_iff, endsWell, decide_eq_true_eq]
      simp
  | cons c l ih =>
      obtain ⟨first, rest, hsplit⟩ := List.exists_cons_of_ne_nil (Text.splitAt_ne_nil '.' l)
      rw [endsWell_cons_iff]
      rw [Text.splitAt, hsplit] at h
      by_cases hc : c = '.'
      · subst hc
        rw [if_pos rfl] at h
        obtain ⟨rfl, rfl⟩ := List.cons.inj h
        rw [continues_nil_iff, List.forall_mem_cons, ← continues_labelStart_iff, ← ih hsplit]
        constructor
        · rintro ⟨state', hnext, hends⟩
          obtain ⟨rfl, rfl⟩ := (next?_dot_iff state state').mp hnext
          exact ⟨rfl, hends⟩
        · rintro ⟨rfl, hends⟩
          exact ⟨.labelStart, (next?_dot_iff _ _).mpr ⟨rfl, rfl⟩, hends⟩
      · rw [if_neg hc] at h
        obtain ⟨rfl, rfl⟩ := List.cons.inj h
        rw [continues_cons_iff, next?_of_ne_dot hc]
        constructor
        · rintro ⟨state', hnext, hends⟩
          obtain ⟨hfirst, hrest⟩ := (ih hsplit).mp hends
          exact ⟨⟨state', hnext, hfirst⟩, hrest⟩
        · rintro ⟨⟨state', hnext, hfirst⟩, hrest⟩
          exact ⟨state', hnext, (ih hsplit).mpr ⟨hfirst, hrest⟩⟩

/-! ### Names -/

theorem isLabel_iff
    (s : String) :
    isLabel s = true ↔ Label s.toList := by
  rw [isLabel, endsWell_iff_continues, continues_labelStart_iff]

theorem isSubdomain_iff
    (s : String) :
    isSubdomain s = true ↔ ∀ label ∈ Text.splitAt '.' s.toList, Label label := by
  obtain ⟨first, rest, hsplit⟩ :=
    List.exists_cons_of_ne_nil (Text.splitAt_ne_nil '.' s.toList)
  rw [isSubdomain, endsWell_iff_of_splitAt hsplit, continues_labelStart_iff, hsplit,
    List.forall_mem_cons]

theorem properName_iff
    {name : String} :
    ¬ (253 < name.utf8ByteSize ∨ ¬ isSubdomain name) ↔ ProperName name := by
  rw [not_or, Decidable.not_not, Nat.not_lt, isSubdomain_iff]
  exact ⟨fun h => ⟨h.2, h.1⟩, fun h => ⟨h.size, h.labels⟩⟩

theorem properNamespace_iff
    {ns : String} :
    ¬ (63 < ns.utf8ByteSize ∨ ¬ isLabel ns) ↔ ProperNamespace ns := by
  rw [not_or, Decidable.not_not, Nat.not_lt, isLabel_iff]
  exact ⟨fun h => ⟨h.2, h.1⟩, fun h => ⟨h.size, h.label⟩⟩

theorem ProperNamespace.ne_empty
    {ns : String}
    (h : ProperNamespace ns) :
    ns ≠ "" := by
  rintro rfl
  exact h.label.nonempty rfl

/-- A proper name begins with a letter or a digit. -/
theorem ProperName.head
    {name : String}
    (h : ProperName name) :
    ∃ c rest, name.toList = c :: rest ∧ isAlnum c = true := by
  obtain ⟨first, pieces, hsplit⟩ :=
    List.exists_cons_of_ne_nil (Text.splitAt_ne_nil '.' name.toList)
  have hfirst : Label first := h.labels first (hsplit ▸ List.mem_cons_self)
  obtain ⟨c, rest, rfl⟩ := List.exists_cons_of_ne_nil hfirst.nonempty
  have hname := Text.intercalate_splitAt '.' name.toList
  rw [hsplit, Text.intercalate_cons] at hname
  refine ⟨c, _, hname.symm, ?_⟩
  rcases hfirst.chars c List.mem_cons_self with hc | rfl
  · exact hc
  · exact absurd rfl hfirst.head

/-! ### Verdicts -/

section Verdicts

variable {name ns : String}

theorem check_of_proper
    (hname : ProperName name)
    (hns : ProperNamespace ns) :
    check name ns = .ok () := by
  rw [check, if_neg (properName_iff.mpr hname), if_neg (String.isEmpty_iff.not.mpr hns.ne_empty),
    if_neg (properNamespace_iff.mpr hns)]

theorem check_of_badName
    (hname : ¬ ProperName name) :
    check name ns = .error (.of (.rejectedClaim (.badName name))) :=
  if_pos (Decidable.not_not.mp (properName_iff.not.mpr hname))

theorem check_of_missingNamespace
    (hname : ProperName name) :
    check name "" = .error (.of (.rejectedClaim .missingNamespace)) := by
  rw [check, if_neg (properName_iff.mpr hname)]
  rfl

theorem check_of_badNamespace
    (hname : ProperName name)
    (hmissing : ns ≠ "")
    (hns : ¬ ProperNamespace ns) :
    check name ns = .error (.of (.rejectedClaim (.badNamespace ns))) := by
  rw [check, if_neg (properName_iff.mpr hname), if_neg (String.isEmpty_iff.not.mpr hmissing),
    if_pos (Decidable.not_not.mp (properNamespace_iff.not.mpr hns))]

end Verdicts

/-- A claim passes the check exactly if its name and its namespace are proper. -/
theorem check_eq_ok_iff
    (name ns : String) :
    check name ns = .ok () ↔ ProperName name ∧ ProperNamespace ns := by
  by_cases hname : ProperName name
  · by_cases hmissing : ns = ""
    · subst hmissing
      rw [check_of_missingNamespace hname]
      exact iff_of_false nofun fun h => h.2.ne_empty rfl
    · by_cases hns : ProperNamespace ns
      · exact iff_of_true (check_of_proper hname hns) ⟨hname, hns⟩
      · rw [check_of_badNamespace hname hmissing hns]
        exact iff_of_false nofun fun h => hns h.2
  · rw [check_of_badName hname]
    exact iff_of_false nofun fun h => hname h.1

end Claim
end ServingAdmin
