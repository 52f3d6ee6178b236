import Mathlib.Logic.Basic
import ServingAdmin.Proofs.Duration.Grammar

/-!
# Reading one component

What the reader splits off a component are its digits, its point and its name, as they stand
there.  So a component is read exactly as it is written, and a text that begins with none is
at fault as the grammar says.
-/

namespace ServingAdmin
namespace Duration

open Text

/-- The name of a unit is not empty and has no digit and no point in it. -/
theorem TimeUnit.chars_of_mem_names
    {unit : TimeUnit}
    {name : List Char}
    (h : name ∈ unit.names) :
    name ≠ [] ∧ ∀ c ∈ name, c ≠ '.' ∧ c.isDigit = false := by
  have hall : ∀ unit : TimeUnit, ∀ name ∈ unit.names,
      name ≠ [] ∧ ∀ c ∈ name, c ≠ '.' ∧ c.isDigit = false := by
    intro unit
    cases unit <;> simp [names]
  exact hall unit name h

theorem TimeUnit.ofName?_eq_some_iff
    {name : List Char}
    {unit : TimeUnit} :
    ofName? name = some unit ↔ name ∈ unit.names := by
  constructor
  · intro h
    unfold ofName? at h
    repeat' split at h
    all_goals cases h
    all_goals simp_all [names]
  · intro h
    cases unit <;> simp only [names, List.mem_cons, List.not_mem_nil, or_false] at h
    case microsecond => rcases h with rfl | rfl | rfl <;> rfl
    all_goals
      subst h
      rfl

/-- What the reader counts for a component is what the component is worth. -/
theorem Component.nanos_eq_worth
    (c : Component) :
    c.nanos = c.worth := by
  have htake :
      c.fraction.take fractionDigits = c.fraction.take (min 18 c.fraction.length) :=
    List.take_eq_take_min
  have hnanos : c.nanos =
      if digitsValue c.whole * c.unit.nanos < counts then c.written % counts else c.written := by
    simp only [nanos, written, htake, List.length_take, Nat.min_assoc, Nat.min_self]
  rw [hnanos, worth]
  by_cases hfits : digitsValue c.whole * c.unit.nanos < counts
  · rw [if_pos hfits]
    split
    · rfl
    · rename_i hwraps
      have hlt : c.written < counts := Nat.lt_of_not_le fun hle => hwraps ⟨hfits, hle⟩
      exact Nat.mod_eq_of_lt hlt
  · rw [if_neg hfits, if_neg fun hwraps => hfits hwraps.1]

section Numbers

theorem Number.hasDigit
    {number whole fraction : List Char}
    (h : Number number whole fraction) :
    ¬ (whole = [] ∧ fraction = []) := by
  rintro ⟨rfl, rfl⟩
  cases h with
  | plain _ hne => exact hne rfl
  | pointed _ _ hne => simp at hne

theorem digits_splitDigits
    (s : List Char) :
    Digits (splitDigits s).1 :=
  List.all_eq_true.mp List.all_takeWhile

/-- Digits that stand in front are split off with those behind them. -/
theorem splitDigits_of_digits
    {digits : List Char}
    (hdigits : Digits digits)
    (s : List Char) :
    splitDigits (digits ++ s) = (digits ++ (splitDigits s).1, (splitDigits s).2) := by
  induction digits with
  | nil => rfl
  | cons c rest ih =>
      have hc : c.isDigit = true := hdigits c List.mem_cons_self
      have hrest := ih fun d hd => hdigits d (List.mem_cons_of_mem c hd)
      rw [splitDigits, Prod.mk.injEq] at hrest
      simp [splitDigits, hc, hrest]

theorem splitDigits_of_not_beginsNumber
    {s : List Char}
    (hs : ¬ BeginsNumber s) :
    splitDigits s = ([], s) := by
  cases s with
  | nil => rfl
  | cons c rest =>
      have hc : ¬ c.isDigit = true := fun h => hs (Or.inr h)
      simp [splitDigits, hc]

theorem splitFraction_of_not_beginsNumber
    {s : List Char}
    (hs : ¬ BeginsNumber s) :
    splitFraction s = ([], s) := by
  unfold splitFraction
  split
  · exact absurd (Or.inl rfl) hs
  · rfl

/-- A number that ends where no number goes on is split into its digits. -/
theorem split_number
    {number whole fraction rest : List Char}
    (hnumber : Number number whole fraction)
    (hrest : ¬ BeginsNumber rest) :
    (splitDigits (number ++ rest)).1 = whole ∧
      splitFraction (splitDigits (number ++ rest)).2 = (fraction, rest) := by
  have hdigits := splitDigits_of_not_beginsNumber hrest
  cases hnumber with
  | plain hwhole _ =>
      simp [splitDigits_of_digits hwhole, hdigits, splitFraction_of_not_beginsNumber hrest]
  | pointed hwhole hfraction _ =>
      have hpoint : splitDigits ('.' :: (fraction ++ rest)) = ([], '.' :: (fraction ++ rest)) := by
        simp [splitDigits]
      simp [splitDigits_of_digits hwhole, hpoint, splitFraction, splitDigits_of_digits hfraction,
        hdigits]

/-- What is split off is a number, unless there are no digits. -/
theorem exists_number
    {s whole fraction rest : List Char}
    (hwhole : (splitDigits s).1 = whole)
    (hfraction : splitFraction (splitDigits s).2 = (fraction, rest))
    (hdigit : whole ≠ [] ∨ fraction ≠ []) :
    ∃ number, s = number ++ rest ∧ Number number whole fraction := by
  have happend := splitDigits_append s
  have hdigits := digits_splitDigits s
  rw [hwhole] at happend hdigits
  generalize (splitDigits s).2 = behind at happend hfraction
  unfold splitFraction at hfraction
  split at hfraction
  · rename_i after
    have hafter := splitDigits_append after
    have hdigits' := digits_splitDigits after
    rw [hfraction] at hafter hdigits'
    refine ⟨whole ++ '.' :: fraction, ?_, .pointed hdigits hdigits' hdigit⟩
    rw [← happend, ← hafter]
    simp
  · cases hfraction
    refine ⟨whole, happend.symm, .plain hdigits ?_⟩
    simpa using hdigit

/-- No number with which a text begins is longer than what is split off. -/
theorem splits_longest
    {s number whole fraction rest : List Char}
    (hwhole : (splitDigits s).1 = whole)
    (hfraction : splitFraction (splitDigits s).2 = (fraction, rest))
    (hnumber : StartsWith s number) :
    (whole ≠ [] ∨ fraction ≠ []) ∧ number.length + rest.length ≤ s.length := by
  obtain ⟨⟨behind, rfl⟩, whole', fraction', hnumber⟩ := hnumber
  cases hnumber with
  | plain hdigits hne =>
      rw [splitDigits_of_digits hdigits] at hwhole hfraction
      have hle := length_splitFraction_le (splitDigits behind).2
      have hle' := length_splitDigits_le behind
      rw [hfraction] at hle
      refine ⟨Or.inl ?_, ?_⟩
      · rw [← hwhole]
        simp [hne]
      · rw [List.length_append]
        simp only at hle
        omega
  | pointed hdigits hdigits' hne =>
      have hpoint :
          splitDigits ('.' :: (fraction' ++ behind)) = ([], '.' :: (fraction' ++ behind)) := by
        simp [splitDigits]
      rw [List.append_assoc, List.cons_append, splitDigits_of_digits hdigits, hpoint]
        at hwhole hfraction
      rw [splitFraction, splitDigits_of_digits hdigits', Prod.mk.injEq] at hfraction
      have hle := length_splitDigits_le behind
      rw [hfraction.2] at hle
      refine ⟨?_, ?_⟩
      · rcases hne with hne | hne
        · exact Or.inl (by simp [← hwhole, hne])
        · exact Or.inr (by simp [← hfraction.1, hne])
      · simp only [List.length_append]
        omega

end Numbers

section Names

theorem isUnitChar_iff
    (c : Char) :
    Component.isUnitChar c = true ↔ c ≠ '.' ∧ c.isDigit = false := by
  simp [Component.isUnitChar]

theorem not_beginsNumber_of_name
    {name : List Char}
    (hne : name ≠ [])
    (hname : ∀ c ∈ name, c ≠ '.' ∧ c.isDigit = false)
    (rest : List Char) :
    ¬ BeginsNumber (name ++ rest) := by
  cases name with
  | nil => exact absurd rfl hne
  | cons c name =>
      obtain ⟨hpoint, hdigit⟩ := hname c List.mem_cons_self
      rintro (h | h)
      · exact hpoint h
      · simp [hdigit] at h

/-- A name is read up to where it ends. -/
theorem takeWhile_isUnitChar
    {name rest : List Char}
    (hname : ∀ c ∈ name, c ≠ '.' ∧ c.isDigit = false)
    (hrest : EndsName rest) :
    (name ++ rest).takeWhile Component.isUnitChar = name ∧
      (name ++ rest).dropWhile Component.isUnitChar = rest := by
  have hchars : ∀ c ∈ name, Component.isUnitChar c = true := fun c hc =>
    (isUnitChar_iff c).mpr (hname c hc)
  rw [List.takeWhile_append_of_pos hchars, List.dropWhile_append_of_pos hchars]
  rcases hrest with rfl | hrest
  · simp
  · cases rest with
    | nil => cases hrest
    | cons c rest =>
        have hc : Component.isUnitChar c = false := by
          rcases hrest with rfl | hdigit
          · rfl
          · simp [Component.isUnitChar, hdigit]
        simp [hc]

theorem endsName_dropWhile
    (s : List Char) :
    EndsName (s.dropWhile Component.isUnitChar) := by
  cases hs : s.dropWhile Component.isUnitChar with
  | nil => exact Or.inl rfl
  | cons c rest =>
      have hc : Component.isUnitChar c = false := by
        have hhead := List.head?_dropWhile_not Component.isUnitChar s
        simpa [hs] using hhead
      refine Or.inr ?_
      by_cases hpoint : c = '.'
      · exact Or.inl hpoint
      · exact Or.inr (by simpa [Component.isUnitChar, hpoint] using hc)

end Names

section Components

theorem exists_split
    (s : List Char) :
    ∃ whole fraction behind, (splitDigits s).1 = whole ∧
      splitFraction (splitDigits s).2 = (fraction, behind) :=
  ⟨_, _, _, rfl, rfl⟩

/-- What a component is read from once its number has been split off. -/
theorem Component.read_of_split
    {s whole fraction rest : List Char}
    (hwhole : (splitDigits s).1 = whole)
    (hfraction : splitFraction (splitDigits s).2 = (fraction, rest)) :
    Component.read s =
      if whole = [] ∧ fraction = [] then .error .malformed
      else if rest.takeWhile isUnitChar = [] then .error .missingUnit
      else
        match TimeUnit.ofName? (rest.takeWhile isUnitChar) with
        | some unit => .ok (⟨whole, fraction, unit⟩, rest.dropWhile isUnitChar)
        | none => .error (.unknownUnit (String.ofList (rest.takeWhile isUnitChar))) := by
  have hdigits : fraction = (splitFraction (splitDigits s).2).1 := by
    rw [hfraction]
  have hrest : rest = (splitFraction (splitDigits s).2).2 := by
    rw [hfraction]
  subst hwhole hdigits hrest
  rfl

/-- A component that begins with a number and a name is read by looking the name up. -/
theorem Component.read_of_number_name
    {number whole fraction name rest : List Char}
    (hnumber : Number number whole fraction)
    (hne : name ≠ [])
    (hname : ∀ c ∈ name, c ≠ '.' ∧ c.isDigit = false)
    (hrest : EndsName rest) :
    Component.read (number ++ name ++ rest) =
      match TimeUnit.ofName? name with
      | some unit => .ok (⟨whole, fraction, unit⟩, rest)
      | none => .error (.unknownUnit (String.ofList name)) := by
  obtain ⟨hwhole, hfraction⟩ := split_number hnumber (not_beginsNumber_of_name hne hname rest)
  obtain ⟨htake, hdrop⟩ := takeWhile_isUnitChar hname hrest
  rw [List.append_assoc, read_of_split hwhole hfraction, if_neg hnumber.hasDigit, htake,
    if_neg hne, hdrop]

/-- A component is read as it is written. -/
theorem Component.read_of_writtenAs
    {c : Component}
    {s rest : List Char}
    (hc : c.WrittenAs s)
    (hrest : EndsName rest) :
    Component.read (s ++ rest) = .ok (c, rest) := by
  cases hc with
  | mk hnumber hunit =>
      obtain ⟨hne, hname⟩ := TimeUnit.chars_of_mem_names hunit
      rw [read_of_number_name hnumber hne hname hrest, TimeUnit.ofName?_eq_some_iff.mpr hunit]

/-- The reader finds what is wrong with a component, up to the sum. -/
theorem Component.read_of_bad
    {sum : Nat}
    {s : List Char}
    {fault : Fault}
    (h : BadComponent sum s fault) :
    Component.read s = .error fault ∨
      fault = .malformed ∧ ∃ c rest, Component.read s = .ok (c, rest) ∧ limit < sum + c.worth := by
  obtain ⟨whole, fraction, behind, hwhole, hfraction⟩ := exists_split s
  cases h with
  | noDigit hnone =>
      left
      rw [read_of_split hwhole hfraction]
      by_cases hdigit : whole = [] ∧ fraction = []
      · exact if_pos hdigit
      · obtain ⟨number, hs, hnumber⟩ := exists_number hwhole hfraction (not_and_or.mp hdigit)
        exact absurd ⟨⟨behind, hs.symm⟩, whole, fraction, hnumber⟩ (hnone number)
  | @noUnit number rest hnumber hlongest hrest =>
      left
      obtain ⟨hdigit, hle⟩ := splits_longest hwhole hfraction hnumber
      obtain ⟨number', hs, hnumber'⟩ := exists_number hwhole hfraction hdigit
      have hle' := hlongest number' ⟨⟨behind, hs.symm⟩, whole, fraction, hnumber'⟩
      have hlength := congrArg List.length hs
      simp only [List.length_append] at hle hlength
      -- both numbers are as long as they can be, so the same is left behind them
      have hbehind : rest = behind := List.append_inj_right' hs (by omega)
      have hnone : ∀ c ∈ ([] : List Char), c ≠ '.' ∧ c.isDigit = false := by
        simp
      have hname : behind.takeWhile isUnitChar = [] :=
        (takeWhile_isUnitChar hnone (hbehind ▸ hrest)).1
      rw [read_of_split hwhole hfraction, if_neg (not_and_or.mpr hdigit), if_pos hname]
  | unknownUnit hnumber hne hname hunknown hrest =>
      left
      rw [read_of_number_name hnumber hne hname hrest]
      split
      · rename_i unit hunit
        exact absurd (TimeUnit.ofName?_eq_some_iff.mp hunit) (hunknown unit)
      · rfl
  | tooMuch hc hrest hsum =>
      exact Or.inr ⟨rfl, _, _, read_of_writtenAs hc hrest, hsum⟩

/-- What is read as a component is written there. -/
theorem Component.writtenAs_of_read
    {c : Component}
    {s rest : List Char}
    (h : Component.read s = .ok (c, rest)) :
    ∃ text, s = text ++ rest ∧ c.WrittenAs text ∧ EndsName rest := by
  obtain ⟨whole, fraction, behind, hwhole, hfraction⟩ := exists_split s
  rw [read_of_split hwhole hfraction] at h
  split at h
  · cases h
  · rename_i hdigit
    obtain ⟨number, hs, hnumber⟩ := exists_number hwhole hfraction (not_and_or.mp hdigit)
    split at h
    · cases h
    · split at h
      · rename_i unit hunit
        cases h
        refine ⟨number ++ behind.takeWhile isUnitChar, ?_,
          .mk hnumber (TimeUnit.ofName?_eq_some_iff.mp hunit), endsName_dropWhile behind⟩
        rw [List.append_assoc, List.takeWhile_append_dropWhile, hs]
      · cases h

/-- What is not read as a component is at fault. -/
theorem Component.bad_of_read
    {s : List Char}
    {fault : Fault}
    (h : Component.read s = .error fault)
    (sum : Nat) :
    BadComponent sum s fault := by
  obtain ⟨whole, fraction, behind, hwhole, hfraction⟩ := exists_split s
  rw [read_of_split hwhole hfraction] at h
  split at h
  · rename_i hdigit
    cases h
    refine .noDigit fun number hnumber => ?_
    exact absurd hdigit (not_and_or.mpr (splits_longest hwhole hfraction hnumber).1)
  · rename_i hdigit
    obtain ⟨number, rfl, hnumber⟩ := exists_number hwhole hfraction (not_and_or.mp hdigit)
    have hends := endsName_dropWhile behind
    split at h
    · rename_i hname
      cases h
      refine .noUnit ⟨List.prefix_append _ _, whole, fraction, hnumber⟩ ?_ ?_
      · intro longer hlonger
        have hle := (splits_longest hwhole hfraction hlonger).2
        rw [List.length_append] at hle
        omega
      · have hsame := List.takeWhile_append_dropWhile (p := isUnitChar) (l := behind)
        rw [hname, List.nil_append] at hsame
        rwa [hsame] at hends
    · rename_i hname
      split at h
      · cases h
      · rename_i hunknown
        cases h
        have hbad :
            BadComponent sum
              (number ++ behind.takeWhile isUnitChar ++ behind.dropWhile isUnitChar)
              (.unknownUnit (String.ofList (behind.takeWhile isUnitChar))) := by
          refine .unknownUnit hnumber hname ?_ ?_ hends
          · intro c hc
            exact (isUnitChar_iff c).mp (List.all_eq_true.mp List.all_takeWhile c hc)
          · intro unit hunit
            rw [TimeUnit.ofName?_eq_some_iff.mpr hunit] at hunknown
            cases hunknown
        rwa [List.append_assoc, List.takeWhile_append_dropWhile] at hbad

end Components

end Duration
end ServingAdmin
