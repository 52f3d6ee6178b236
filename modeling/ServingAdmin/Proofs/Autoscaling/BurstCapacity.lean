import ServingAdmin.Proofs.Autoscaling.Accepted
import ServingAdmin.Proofs.Binary64.Value

/-!
# The burst capacities that are accepted

A burst capacity is a number that is not negative, or minus one for no limit.  The check takes in
how far a number is from minus one, and lets through what is no further from it than one is from the
next larger number.  Between 1/2 and 1 the numbers of the format lie 2^-53 apart and between 1 and 2
twice as far, so besides minus one there are three such numbers (`isCapacity_iff`), and the check is
exact for all texts but those that are written for one of these.
-/

namespace ServingAdmin
namespace Autoscaling

open Binary64 (Denotes signedUnits unitsPerOne)

/-- What a burst capacity has to be: a number that is not negative, or minus one for no limit. -/
inductive IsBurstCapacity : Binary64 → Prop
  | limit
      {negative : Bool}
      {units : Nat} :
      0 ≤ signedUnits negative units →
        IsBurstCapacity (.finite negative units)
  | noLimit :
      IsBurstCapacity (.finite true unitsPerOne)

/-- The distance from one to the next smaller number. -/
def stepBelowOne : Nat := Nat.pow 2 1021

/-- The numbers next to minus one, counted in these distances, of which one has 2^53: two above it,
and one below, where the numbers lie twice as far apart. -/
def besideMinusOne : List Binary64 :=
  [Nat.pow 2 53 - 2, Nat.pow 2 53 - 1, Nat.pow 2 53 + 2].map fun c =>
    .finite true (c * stepBelowOne)

theorem exists_stepBelowOne_eq :
    ∃ j, stepBelowOne = Nat.pow 2 j :=
  ⟨1021, by decide +kernel⟩

theorem unitsPerOne_eq_mul :
    unitsPerOne = Nat.pow 2 53 * stepBelowOne := by
  decide +kernel

theorem spacing_unitsPerOne :
    Binary64.spacing unitsPerOne = 2 * stepBelowOne := by
  decide +kernel

theorem two_pow_53_eq :
    Nat.pow 2 53 = 9_007_199_254_740_992 :=
  rfl

-- written out, the counts of units would be compared digit by digit
attribute [local irreducible] unitsPerOne stepBelowOne

section Check

variable {negative : Bool} {units : Nat} {v : Binary64} {raw stored : String} {failure : Failure}

theorem stepBelowOne_pos :
    0 < stepBelowOne := by
  obtain ⟨j, hj⟩ := exists_stepBelowOne_eq
  rw [hj]
  exact Binary64.two_pow_pos j

theorem mem_besideMinusOne_iff :
    v ∈ besideMinusOne ↔
      ∃ c, v = .finite true (c * stepBelowOne) ∧
        (c = Nat.pow 2 53 - 2 ∨ c = Nat.pow 2 53 - 1 ∨ c = Nat.pow 2 53 + 2) := by
  simp only [besideMinusOne, List.mem_map, List.mem_cons, List.not_mem_nil, or_false]
  constructor
  · rintro ⟨c, hc, rfl⟩
    exact ⟨c, rfl, hc⟩
  · rintro ⟨c, rfl, hc⟩
    exact ⟨c, hc, rfl⟩

/-- The numbers next to minus one are none that a burst capacity has to be. -/
theorem not_isBurstCapacity_of_beside
    (h : v ∈ besideMinusOne) :
    ¬ IsBurstCapacity v := by
  obtain ⟨c, rfl, hc⟩ := mem_besideMinusOne_iff.mp h
  have hpos := stepBelowOne_pos
  rw [two_pow_53_eq] at hc
  intro hcapacity
  generalize hunits : c * stepBelowOne = units at hcapacity
  cases hcapacity with
  | limit hsign =>
      have hunits' : 0 < units := hunits ▸ Nat.mul_pos (by omega) hpos
      simp only [signedUnits] at hsign
      omega
  | noLimit =>
      rw [unitsPerOne_eq_mul, two_pow_53_eq] at hunits
      have hone := Nat.eq_of_mul_eq_mul_right hpos hunits
      omega

/-- The numbers that are no further from minus one than one is from the next larger number. -/
theorem near_minusOne_iff
    (hunits : Binary64.Representable units) :
    (-(units : Int) + unitsPerOne).natAbs ≤ 2 * stepBelowOne ↔
      units = unitsPerOne ∨ .finite true units ∈ besideMinusOne := by
  have hone := unitsPerOne_eq_mul
  rw [two_pow_53_eq] at hone
  rw [mem_besideMinusOne_iff, two_pow_53_eq]
  constructor
  · intro hnear
    obtain ⟨c, rfl, hcount⟩ : ∃ c, units = c * stepBelowOne ∧ Nat.pow 2 53 - 2 ≤ c ∧
        c ≤ Nat.pow 2 53 + 2 ∧ c ≠ Nat.pow 2 53 + 1 := by
      obtain ⟨j, hj⟩ := exists_stepBelowOne_eq
      rw [hj] at hone hnear ⊢
      apply hunits.exists_count <;> rw [two_pow_53_eq] <;> omega
    rw [two_pow_53_eq] at hcount
    by_cases hc : c = 9_007_199_254_740_992
    · exact Or.inl (by rw [hone, hc])
    · exact Or.inr ⟨c, rfl, by omega⟩
  · rintro (rfl | ⟨c, hv, hc⟩)
    · omega
    · cases hv
      rcases hc with rfl | rfl | rfl <;> omega

/-- The check lets through the numbers that a burst capacity has to be, and those next to minus
one. -/
theorem isCapacity_iff
    (hunits : Binary64.Representable units) :
    Field.isCapacity (signedUnits negative units) ↔
      IsBurstCapacity (.finite negative units) ∨ .finite negative units ∈ besideMinusOne := by
  rw [Field.isCapacity, spacing_unitsPerOne]
  constructor
  · rintro (hsign | hnear)
    · exact Or.inl (.limit hsign)
    · cases negative with
      | false => exact Or.inl (.limit (Int.natCast_nonneg units))
      | true =>
          rcases (near_minusOne_iff hunits).mp hnear with rfl | hbeside
          · exact Or.inl .noLimit
          · exact Or.inr hbeside
  · rintro (hcapacity | hbeside)
    · cases hcapacity with
      | limit hsign => exact Or.inl hsign
      | noLimit => exact Or.inr ((near_minusOne_iff hunits).mpr (Or.inl rfl))
    · obtain ⟨c, hv, _⟩ := mem_besideMinusOne_iff.mp hbeside
      cases hv
      exact Or.inr ((near_minusOne_iff hunits).mpr (Or.inr hbeside))

theorem named?_burstCapacity :
    ∃ f, Field.named? "target-burst-capacity" = some f ∧ f.name = "target-burst-capacity" ∧
      f.kind = .burstCapacity :=
  ⟨_, rfl, rfl, rfl⟩

theorem accept_burstCapacity_eq_ok_iff :
    accept "target-burst-capacity" raw = .ok stored ↔
      stored = raw ∧ ∃ v, Denotes raw v ∧ (IsBurstCapacity v ∨ v ∈ besideMinusOne) := by
  obtain ⟨f, hf, _, hkind⟩ := named?_burstCapacity
  rw [accept_eq_ok_iff_of_named hf, hkind]
  constructor
  · intro hstores
    cases hstores with
    | burstCapacity hread hcapacity =>
        have hdenotes := Binary64.read_eq_ok_iff_denotes.mp hread
        exact ⟨rfl, _, hdenotes, (isCapacity_iff hdenotes.representable).mp hcapacity⟩
  · rintro ⟨rfl, v, hdenotes, hv⟩
    obtain ⟨negative, units, rfl⟩ : ∃ negative units, v = .finite negative units := by
      rcases hv with hcapacity | hbeside
      · cases hcapacity <;> exact ⟨_, _, rfl⟩
      · obtain ⟨c, rfl, _⟩ := mem_besideMinusOne_iff.mp hbeside
        exact ⟨_, _, rfl⟩
    exact .burstCapacity (Binary64.read_eq_ok_iff_denotes.mpr hdenotes)
      ((isCapacity_iff hdenotes.representable).mpr hv)

/-- What is not accepted is rejected for its number, or because it is none. -/
theorem problem_of_accept_burstCapacity
    (h : accept "target-burst-capacity" raw = .error failure) :
    (∃ negative units, Denotes raw (.finite negative units)) ∧
        failure.problem = .rejectedField "target-burst-capacity" (.badCapacity raw) ∨
      (¬ ∃ negative units, Denotes raw (.finite negative units)) ∧
        failure.problem = .rejectedField "target-burst-capacity" (.notDecimal raw) := by
  obtain ⟨f, hf, hname, hkind⟩ := named?_burstCapacity
  rw [accept, hf] at h
  simp only [Field.accept, hkind] at h
  rw [← hname]
  rcases bind_eq_error_iff.mp h with hunits | ⟨units, hunits, hcheck⟩
  · refine Or.inr ⟨?_, Field.problem_of_readUnits hunits⟩
    rintro ⟨negative, n, hdenotes⟩
    have hread : f.readUnits raw = .ok (signedUnits negative n) :=
      Field.readUnits_eq_ok_iff.mpr
        ⟨negative, n, Binary64.read_eq_ok_iff_denotes.mpr hdenotes, rfl⟩
    cases hunits.symm.trans hread
  · obtain ⟨negative, n, hread, _⟩ := Field.readUnits_eq_ok_iff.mp hunits
    refine Or.inl ⟨⟨negative, n, Binary64.read_eq_ok_iff_denotes.mp hread⟩, ?_⟩
    split at hcheck
    · cases hcheck
    · cases hcheck
      rfl

end Check

/-- A burst capacity is accepted as it is if it is written for a number that is not negative, for
minus one or for one of the three numbers next to minus one, and is rejected for its text or its
number otherwise.  So the check is exact but for the texts that are written for one of the three. -/
theorem accept_burstCapacity
    (raw : String) :
    (∀ stored, accept "target-burst-capacity" raw = .ok stored ↔
        stored = raw ∧ ∃ v, Denotes raw v ∧ (IsBurstCapacity v ∨ v ∈ besideMinusOne)) ∧
      ((accept "target-burst-capacity" raw = .ok raw ↔ ∃ v, Denotes raw v ∧ IsBurstCapacity v) ↔
        ∀ v ∈ besideMinusOne, ¬ Denotes raw v) ∧
      ∀ failure, accept "target-burst-capacity" raw = .error failure →
        (∃ negative units, Denotes raw (.finite negative units)) ∧
            failure.problem = .rejectedField "target-burst-capacity" (.badCapacity raw) ∨
          (¬ ∃ negative units, Denotes raw (.finite negative units)) ∧
            failure.problem = .rejectedField "target-burst-capacity" (.notDecimal raw) := by
  refine ⟨fun stored => accept_burstCapacity_eq_ok_iff, ⟨fun hexact v hbeside hdenotes => ?_,
    fun hother => ?_⟩, fun failure => problem_of_accept_burstCapacity⟩
  · have haccept := accept_burstCapacity_eq_ok_iff.mpr ⟨rfl, v, hdenotes, Or.inr hbeside⟩
    obtain ⟨v', hdenotes', hcapacity⟩ := hexact.mp haccept
    rw [hdenotes'.unique hdenotes] at hcapacity
    exact not_isBurstCapacity_of_beside hbeside hcapacity
  · rw [accept_burstCapacity_eq_ok_iff]
    constructor
    · rintro ⟨_, v, hdenotes, hcapacity | hbeside⟩
      · exact ⟨v, hdenotes, hcapacity⟩
      · exact absurd hdenotes (hother v hbeside)
    · rintro ⟨v, hdenotes, hcapacity⟩
      exact ⟨rfl, v, hdenotes, Or.inl hcapacity⟩

/-- The number next to minus one on the side of the larger magnitudes is accepted, although it is
negative and not minus one. -/
theorem burstCapacity_besideMinusOne_accepted :
    accept "target-burst-capacity" "-1.0000000000000002" = .ok "-1.0000000000000002" ∧
      ¬ ∃ v, Denotes "-1.0000000000000002" v ∧ IsBurstCapacity v := by
  have hread : Binary64.read "-1.0000000000000002" =
      .ok (.finite true ((Nat.pow 2 53 + 2) * stepBelowOne)) :=
    eq_ok_of_toOption_eq_some (by decide +kernel)
  have hdenotes := Binary64.read_eq_ok_iff_denotes.mp hread
  have hbeside := mem_besideMinusOne_iff.mpr ⟨_, rfl, Or.inr (Or.inr rfl)⟩
  refine ⟨accept_burstCapacity_eq_ok_iff.mpr ⟨rfl, _, hdenotes, Or.inr hbeside⟩, ?_⟩
  rintro ⟨v, hdenotes', hcapacity⟩
  rw [hdenotes'.unique hdenotes] at hcapacity
  exact not_isBurstCapacity_of_beside hbeside hcapacity

end Autoscaling
end ServingAdmin
