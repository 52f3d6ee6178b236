import ServingAdmin.Proofs.Duration.Canonical
import ServingAdmin.Proofs.Duration.Reader

/-!
# The text of a duration is read as that duration

A canonical text is one of the texts of the grammar, and its components add up to the count that
it is the canonical text of.  So the text of a duration is read as that duration, with one
exception: the least duration has no opposite, its text adds up to one nanosecond more than can
be read, and a text whose components add up to too much is malformed.
-/

namespace ServingAdmin
namespace Duration

open Text

section Spelling

theorem Spell.append
    {cs ds : List Component}
    {s t : List Char}
    (hs : Spell cs s)
    (ht : Spell ds t) :
    Spell (cs ++ ds) (s ++ t) := by
  induction hs with
  | nil => exact ht
  | cons hc _ ih =>
      rw [List.append_assoc, List.cons_append]
      exact .cons hc ih

theorem total_append
    (cs ds : List Component) :
    total (cs ++ ds) = total cs + total ds := by
  induction cs with
  | nil => simp [total]
  | cons c cs ih =>
      rw [List.cons_append, total, total, ih]
      omega

theorem Spell.single
    {c : Component}
    {s : List Char}
    (h : c.WrittenAs s) :
    Spell [c] s := by
  simpa using Spell.cons h .nil

theorem TimeUnit.symbol_mem_names
    (unit : TimeUnit) :
    unit.symbol ∈ unit.names := by
  cases unit <;> decide

/-- Without a fraction a component is worth its whole units. -/
theorem Component.worth_of_whole
    (whole : List Char)
    (unit : TimeUnit) :
    worth ⟨whole, [], unit⟩ = digitsValue whole * unit.nanos := by
  have hwritten : written ⟨whole, [], unit⟩ = digitsValue whole * unit.nanos := by
    simp [written]
  have hwraps : ¬ Wraps ⟨whole, [], unit⟩ := by
    rintro ⟨hfits, hpast⟩
    rw [hwritten] at hpast
    exact Nat.not_le_of_lt hfits hpast
  rw [worth, if_neg hwraps, hwritten]

/-- A fraction that is not cut off writes the parts that its digits write. -/
theorem Component.written_of_places
    {whole fraction : List Char}
    {unit : TimeUnit}
    {places : Nat}
    (hunit : unit.nanos = Nat.pow 10 places)
    (hlength : fraction.length ≤ places)
    (hplaces : places ≤ 18) :
    written ⟨whole, fraction, unit⟩ =
      digitsValue whole * unit.nanos +
        digitsValue fraction * Nat.pow 10 (places - fraction.length) := by
  have hpow : Nat.pow 10 places =
      Nat.pow 10 (places - fraction.length) * Nat.pow 10 fraction.length :=
    calc
      Nat.pow 10 places = Nat.pow 10 (places - fraction.length + fraction.length) := by
        rw [Nat.sub_add_cancel hlength]
      _ = Nat.pow 10 (places - fraction.length) * Nat.pow 10 fraction.length :=
        Nat.pow_add 10 _ _
  have hpos : 0 < Nat.pow 10 fraction.length := Nat.pow_pos (by decide)
  simp only [written]
  rw [Nat.min_eq_right (by omega), List.take_length, hunit, hpow, ← Nat.mul_assoc,
    ← Nat.mul_assoc, Nat.mul_div_cancel _ hpos]

/-- A number with a fraction is a component that is worth its whole units and its parts. -/
theorem exists_component
    {whole fraction : List Char}
    {places n parts : Nat}
    (unit : TimeUnit)
    (hunit : unit.nanos = Nat.pow 10 places)
    (hplaces : places ≤ 18)
    (hwhole : Numeral whole n)
    (hfraction : Fraction places fraction parts)
    (hsum : n * unit.nanos + parts < Nat.pow 2 128) :
    ∃ c : Component, c.WrittenAs (whole ++ fraction ++ unit.symbol) ∧
      c.worth = n * unit.nanos + parts := by
  cases hfraction with
  | none =>
      refine ⟨⟨whole, [], unit⟩, ?_, ?_⟩
      · rw [List.append_nil]
        exact .mk (.plain hwhole.digits hwhole.ne_nil) unit.symbol_mem_names
      · rw [Component.worth_of_whole, hwhole.value, Nat.add_zero]
  | @digits s zeros hdigits _ _ hlength =>
      refine ⟨⟨whole, s, unit⟩, ?_, ?_⟩
      · exact .mk (.pointed hwhole.digits hdigits (Or.inl hwhole.ne_nil)) unit.symbol_mem_names
      · have hwritten : Component.written ⟨whole, s, unit⟩ =
            n * unit.nanos + digitsValue s * Nat.pow 10 zeros := by
          rw [Component.written_of_places hunit (by omega) hplaces, hwhole.value,
            show places - s.length = zeros by omega]
        rw [Component.worth_of_lt (hwritten ▸ hsum), hwritten]

/-- Hours or minutes that are there make up a component, and others count for nothing. -/
theorem ClockPart.exists_spell
    {n count : Nat}
    {unit : TimeUnit}
    {s : List Char}
    (h : ClockPart n unit count s)
    (hcount : count * unit.nanos ≤ n) :
    ∃ cs, Spell cs s ∧ total cs = count * unit.nanos := by
  cases h with
  | @reached digits _ hnumeral =>
      have hwritten : (⟨digits, [], unit⟩ : Component).WrittenAs (digits ++ unit.symbol) :=
        .mk (.plain hnumeral.digits hnumeral.ne_nil) unit.symbol_mem_names
      refine ⟨_, .single hwritten, ?_⟩
      rw [total, total, Component.worth_of_whole, hnumeral.value, Nat.add_zero]
  | notReached hlt =>
      refine ⟨[], .nil, ?_⟩
      -- a count of the unit that is not zero would reach it
      rcases Nat.eq_zero_or_pos count with hzero | hpos
      · simp [hzero, total]
      · have := Nat.le_mul_of_pos_left unit.nanos hpos
        omega

end Spelling

section Canonical

/-- A canonical text is written for the count that it is canonical for. -/
theorem CanonicalMagnitude.magnitude
    {s : List Char}
    {n : Nat}
    (h : CanonicalMagnitude s n) :
    Magnitude s n := by
  cases h with
  | zero =>
      obtain ⟨c, hc, hworth⟩ := exists_component .second (rfl : _ = Nat.pow 10 9) (by decide)
        (numeral_digitsOf 0) .none (by decide)
      have hmagnitude := Magnitude.components (.single hc) (List.cons_ne_nil _ _)
      rw [total, total, hworth] at hmagnitude
      exact hmagnitude
  | @small _ places unit whole fraction hlt hsmall _ _ hunit hwhole hfraction =>
      have hpow : Nat.pow 10 places < Nat.pow 10 10 := by
        rw [← hunit]
        simp only [smallUnits, List.mem_cons, List.not_mem_nil, or_false] at hsmall
        rcases hsmall with rfl | rfl | rfl <;> decide
      have hplaces : places < 10 :=
        (Nat.pow_lt_pow_iff_right (by decide : 1 < 10)).mp hpow
      have hsum : n / unit.nanos * unit.nanos + n % unit.nanos < Nat.pow 2 128 := by
        rw [Nat.div_add_mod']
        exact Nat.lt_trans hlt (by decide)
      obtain ⟨c, hc, hworth⟩ := exists_component unit hunit (by omega) hwhole hfraction hsum
      have hmagnitude := Magnitude.components (.single hc) (List.cons_ne_nil _ _)
      rwa [total, total, hworth, Nat.add_zero, Nat.div_add_mod'] at hmagnitude
  | @clock _ h m s parts hours minutes seconds fraction _ hn _ hs hparts hhours hminutes hseconds
      hfraction =>
      obtain ⟨cs, hcs, hcsTotal⟩ := hhours.exists_spell (by omega)
      obtain ⟨ds, hds, hdsTotal⟩ := hminutes.exists_spell (by omega)
      have hsecond : TimeUnit.second.nanos = 1_000_000_000 := rfl
      have hsum : s * TimeUnit.second.nanos + parts < Nat.pow 2 128 := by
        rw [hsecond] at hparts ⊢
        exact Nat.lt_trans (by omega : s * 1_000_000_000 + parts < 60_000_000_000) (by decide)
      obtain ⟨c, hc, hworth⟩ := exists_component .second rfl (by decide) hseconds hfraction hsum
      have hmagnitude := Magnitude.components ((hcs.append hds).append (.single hc))
        (by simp)
      simp only [total_append, total, hcsTotal, hdsTotal, hworth] at hmagnitude
      rw [hn]
      simpa [List.append_assoc, Nat.add_assoc] using hmagnitude

theorem Magnitude.beginsNumber
    {s : List Char}
    {n : Nat}
    (h : Magnitude s n) :
    BeginsNumber s := by
  cases h with
  | zero => exact Or.inr rfl
  | components hspell hcs => simpa using hspell.beginsNumber hcs []

/-- A text that begins with a number has no sign. -/
theorem BeginsNumber.signed
    {s : List Char}
    (h : BeginsNumber s) :
    Signed s false s := by
  cases s with
  | nil => exact absurd rfl h.ne_nil
  | cons c s =>
      refine .bare ?_ ?_
      · rintro ⟨⟩
        rcases h with h | h <;> cases h
      · rintro ⟨⟩
        rcases h with h | h <;> cases h

/-- A count is read off its text without a sign or with a minus. -/
theorem Magnitude.signed
    {s : List Char}
    {n : Nat}
    (h : Magnitude s n)
    (negative : Bool) :
    Signed (if negative then '-' :: s else s) negative s := by
  cases negative with
  | true => exact .minus s
  | false => exact h.beginsNumber.signed

/-- A text that is written for the magnitude of a duration behind its sign is written for the
duration. -/
theorem Magnitude.denotes
    {raw : String}
    {d : Duration}
    {s : List Char}
    (h : Magnitude s d.nanos.natAbs)
    (hraw : raw.toList = if d.nanos < 0 then '-' :: s else s)
    (hlimit : d.nanos.natAbs ≤ limit) :
    Denotes raw d := by
  refine ⟨decide (d.nanos < 0), s, _, ?_, h, hlimit, ?_⟩
  · simpa [hraw] using h.signed (decide (d.nanos < 0))
  · simp only [decide_eq_true_eq]
    split <;> omega

theorem denotes_of_canonicalText
    {raw : String}
    {d : Duration}
    (h : CanonicalText raw.toList d.nanos)
    (hlimit : d.nanos.natAbs ≤ limit) :
    Denotes raw d := by
  obtain ⟨magnitude, hmagnitude, hraw⟩ := h
  exact hmagnitude.magnitude.denotes hraw hlimit

end Canonical

section PastLimit

/-- Where components add up to too much, one of them is the first to pass the limit. -/
theorem exists_bad_of_spell
    {cs : List Component}
    {s : List Char}
    (h : Spell cs s)
    {sum : Nat}
    (hsum : sum ≤ limit)
    (hpast : limit < sum + total cs) :
    ∃ before good bad, s = good ++ bad ∧ Spell before good ∧ sum + total before ≤ limit ∧
      BeginsNumber bad ∧ BadComponent (sum + total before) bad .malformed := by
  induction h generalizing sum with
  | nil =>
      rw [total] at hpast
      omega
  | @cons c cs s rest hc hrest ih =>
      by_cases hfirst : sum + c.worth ≤ limit
      · rw [total, ← Nat.add_assoc] at hpast
        obtain ⟨before, good, bad, rfl, hgood, htotal, hbegins, hbad⟩ := ih hfirst hpast
        have hmore : sum + total (c :: before) = sum + c.worth + total before := by
          rw [total]
          omega
        exact ⟨c :: before, s ++ good, bad, (List.append_assoc _ _ _).symm, .cons hc hgood,
          hmore ▸ htotal, hbegins, hmore ▸ hbad⟩
      · have hends : EndsName rest := by
          simpa using hrest.endsName (Or.inl rfl : EndsName [])
        have hbegins : BeginsNumber (s ++ rest) :=
          (Spell.single hc).beginsNumber (List.cons_ne_nil _ _) rest
        exact ⟨[], [], s ++ rest, rfl, .nil, hsum, hbegins,
          .tooMuch hc hends (Nat.lt_of_not_le hfirst)⟩

/-- A text that is written for too much is malformed. -/
theorem Magnitude.faulty
    {s : List Char}
    {n : Nat}
    (h : Magnitude s n)
    (hpast : limit < n) :
    FaultyMagnitude s .malformed := by
  cases h with
  | zero => exact absurd hpast (Nat.not_lt_zero _)
  | @components cs _ hspell hcs =>
      refine ⟨?_, ?_⟩
      · rintro rfl
        exact not_spell_zero hcs hspell
      · obtain ⟨before, good, bad, hs, hgood, htotal, hbegins, hbad⟩ :=
          exists_bad_of_spell hspell (Nat.zero_le _) (by simpa using hpast)
        rw [Nat.zero_add] at htotal hbad
        exact ⟨before, good, bad, hs, hgood, htotal, Or.inr hbegins, hbad⟩

theorem faultIn_of_canonicalText
    {raw : String}
    {n : Int}
    (h : CanonicalText raw.toList n)
    (hpast : limit < n.natAbs) :
    FaultIn raw .malformed := by
  obtain ⟨magnitude, hmagnitude, hraw⟩ := h
  refine ⟨decide (n < 0), magnitude, ?_, hmagnitude.magnitude.faulty hpast⟩
  simpa [hraw] using hmagnitude.magnitude.signed (decide (n < 0))

end PastLimit

end Duration

/-- The text of every duration is canonical.  It is read as that duration, except that of the least
duration, which is malformed. -/
theorem Autoscaling.readDuration_text
    (d : Duration) :
    (d.nanos ≠ -0x8000_0000_0000_0000 → readDuration d.text = .ok d) ∧
      (d.nanos = -0x8000_0000_0000_0000 →
        readDuration d.text = .error (.of (.badDuration .malformed d.text))) ∧
      Duration.CanonicalText d.text.toList d.nanos := by
  have hcanonical := d.canonicalText_text
  have hrange := d.inRange
  refine ⟨fun hnot => ?_, fun hleast => ?_, hcanonical⟩
  · have hlimit : d.nanos.natAbs ≤ Duration.limit := by
      unfold Duration.limit
      omega
    have hread := Duration.read_eq_ok_iff.mpr (Duration.denotes_of_canonicalText hcanonical hlimit)
    rw [readDuration, hread]
    rfl
  · have hpast : Duration.limit < d.nanos.natAbs := by
      unfold Duration.limit
      omega
    have hread :=
      Duration.read_eq_error_iff.mpr (Duration.faultIn_of_canonicalText hcanonical hpast)
    rw [readDuration, hread]
    rfl

end ServingAdmin
