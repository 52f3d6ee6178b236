import ServingAdmin.Binary64.Numeral
import ServingAdmin.Proofs.Binary64.Nearest

/-!
# The numeral that is found

The search for the numeral with the fewest places ends at the first number of places with a
numeral that reads back.  If only one numeral with some number of places reads back, then the
numeral that is found has the value of this one, written with no more places.
-/

namespace ServingAdmin
namespace Binary64

/-- A search through the first numbers ends no later than at one with a value. -/
theorem exists_findSome?_range
    {α : Type}
    {f : Nat → Option α}
    {last k : Nat}
    (h : (f last).isSome)
    (hlast : last < k) :
    ∃ p ≤ last, ∃ a, f p = some a ∧ (List.range k).findSome? f = some a := by
  have hsome : ((List.range k).findSome? f).isSome :=
    List.findSome?_isSome_iff.mpr ⟨last, List.mem_range.mpr hlast, h⟩
  obtain ⟨a, ha⟩ := Option.isSome_iff_exists.mp hsome
  obtain ⟨before, p, after, hrange, hp, hbefore⟩ := List.findSome?_eq_some_iff.mp ha
  refine ⟨p, Nat.le_of_not_lt fun hlt => ?_, a, hp, ha⟩
  -- otherwise the number with a value would stand before the place where the search ends
  have hmem : last ∈ before := by
    have hincreasing : (List.range k).Pairwise (· < ·) := List.pairwise_lt_range
    have hlisted : last ∈ List.range k := List.mem_range.mpr hlast
    rw [hrange] at hincreasing hlisted
    have hafter := (List.pairwise_cons.mp (List.pairwise_append.mp hincreasing).2.1).1
    rcases List.mem_append.mp hlisted with hmem | hmem
    · exact hmem
    · rcases List.mem_cons.mp hmem with rfl | hmem
      · exact absurd hlt (Nat.lt_irrefl _)
      · exact absurd (hafter last hmem) (Nat.lt_asymm hlt)
  rw [hbefore last hmem] at h
  cases h

theorem exists_unitsPerOne_eq :
    ∃ bits, unitsPerOne = Nat.pow 2 bits :=
  ⟨1074, by decide +kernel⟩

theorem unitsPerOne_pos :
    0 < unitsPerOne := by
  obtain ⟨bits, hbits⟩ := exists_unitsPerOne_eq
  rw [hbits]
  exact two_pow_pos bits

-- written out, the count of units would be compared digit by digit
attribute [local irreducible] unitsPerOne

section Candidates

variable {units places n : Nat}

theorem nearerThatReads_eq_some
    {readsBelow readsAbove belowIsNearer : Bool}
    {below : Nat}
    (h : nearerThatReads readsBelow readsAbove belowIsNearer below = some n) :
    n = below ∧ readsBelow = true ∨ n = below + 1 ∧ readsAbove = true := by
  unfold nearerThatReads at h
  split at h
  · cases h
    cases belowIsNearer <;> simp
  · cases h
    simp
  · cases h
    simp
  · cases h

theorem exists_nearerThatReads
    {readsBelow readsAbove : Bool}
    (h : readsBelow = true ∨ readsAbove = true)
    (belowIsNearer : Bool)
    (below : Nat) :
    ∃ m, nearerThatReads readsBelow readsAbove belowIsNearer below = some m := by
  rcases h with rfl | rfl
  · cases readsAbove <;> simp [nearerThatReads]
  · cases readsBelow <;> simp [nearerThatReads]

/-- A candidate reads back. -/
theorem nearest_of_candidate?
    (h : candidate? units places = some n) :
    nearest (n * unitsPerOne) (Nat.pow 10 places) = units := by
  have hreads : readsAs units places n = true := by
    rw [candidate?] at h
    rcases nearerThatReads_eq_some h with ⟨rfl, hbelow⟩ | ⟨rfl, habove⟩
    · exact hbelow
    · exact habove
  simpa [readsAs] using hreads

/-- Where a numeral next to the number reads back, there is a candidate. -/
theorem exists_candidate?
    (hreads : nearest (n * unitsPerOne) (Nat.pow 10 places) = units)
    (hbelow : units * Nat.pow 10 places < (n + 1) * unitsPerOne)
    (habove : n * unitsPerOne < units * Nat.pow 10 places + unitsPerOne) :
    ∃ m, candidate? units places = some m := by
  have hpos := unitsPerOne_pos
  have hfloor : units * Nat.pow 10 places / unitsPerOne < n + 1 :=
    (Nat.div_lt_iff_lt_mul hpos).mpr hbelow
  have hceil : n ≤ units * Nat.pow 10 places / unitsPerOne + 1 := by
    rw [← Nat.add_div_right _ hpos]
    exact (Nat.le_div_iff_mul_le hpos).mpr (Nat.le_of_lt habove)
  have hreads' : readsAs units places n = true := by
    simpa [readsAs] using hreads
  rw [candidate?]
  refine exists_nearerThatReads ?_ _ _
  -- the numeral is one of the two neighbours of the number
  have hneighbour : n = units * Nat.pow 10 places / unitsPerOne ∨
      n = units * Nat.pow 10 places / unitsPerOne + 1 := by
    omega
  rcases hneighbour with hn | hn
  · exact Or.inl (hn ▸ hreads')
  · exact Or.inr (hn ▸ hreads')

/-- The search ends no later than at a number of places with a candidate. -/
theorem shortestPlaces_of_candidate?
    {last : Nat}
    (h : candidate? units last = some n)
    (hlast : last < 1074) :
    ∃ p m, shortestPlaces units = (p, m) ∧ p ≤ last ∧ candidate? units p = some m := by
  obtain ⟨p, hp, ⟨_, m⟩, hm, hfound⟩ :=
    exists_findSome?_range (f := fun places => (candidate? units places).map fun n => (places, n))
      (by simp [h]) hlast
  rw [Option.map_eq_some_iff] at hm
  obtain ⟨_, hm, ⟨⟩⟩ := hm
  exact ⟨p, m, by rw [shortestPlaces, hfound, Option.getD_some], hp, hm⟩

end Candidates

/-- If one numeral with some number of places is the only one that reads back, the numeral that is
found has its value. -/
theorem shortestUnits_of_unique
    {units places n : Nat}
    (hplaces : places < 1074)
    (hreads : nearest (n * unitsPerOne) (Nat.pow 10 places) = units)
    (hbelow : units * Nat.pow 10 places < (n + 1) * unitsPerOne)
    (habove : n * unitsPerOne < units * Nat.pow 10 places + unitsPerOne)
    (hunique : ∀ m, nearest (m * unitsPerOne) (Nat.pow 10 places) = units → m = n) :
    ∃ p m, p ≤ places ∧ m * Nat.pow 10 (places - p) = n ∧ shortestUnits units = numeral p m := by
  obtain ⟨_, hcandidate⟩ := exists_candidate? hreads hbelow habove
  obtain ⟨p, m, hfound, hp, hm⟩ := shortestPlaces_of_candidate? hcandidate hplaces
  refine ⟨p, m, hp, hunique _ ?_, by rw [shortestUnits, hfound]⟩
  have hpow : Nat.pow 10 places = Nat.pow 10 p * Nat.pow 10 (places - p) :=
    calc
      Nat.pow 10 places = Nat.pow 10 (p + (places - p)) := by
        rw [Nat.add_sub_cancel' hp]
      _ = Nat.pow 10 p * Nat.pow 10 (places - p) := Nat.pow_add 10 _ _
  have hpos : 0 < Nat.pow 10 (places - p) := Nat.pow_pos (by decide)
  rw [hpow, Nat.mul_right_comm, nearest_scale _ _ hpos, nearest_of_candidate? hm]

end Binary64
end ServingAdmin
