import ServingAdmin.Proofs.Duration.RoundTrip

/-!
# The brief text of a duration

The brief text of a duration is its text without the remainders of zero at the end: whole minutes
are shown without their zero seconds, and whole hours without their zero minutes either.  The
printer finds these remainders by how the text ends.  A text ends in them exactly if the count is a
multiple of the unit, since a number that is a single zero is zero, and no other number stands right
behind the name of a unit.

What is left are the hours and the minutes with their units, so it is read as the same duration.
-/

namespace ServingAdmin
namespace Duration

open Text

/-- The end of the text of a count of nanoseconds that its brief text does without. -/
def zeroRemainder
    (n : Nat) :
    List Char :=
  if n = 0 ∨ n % TimeUnit.minute.nanos ≠ 0 then []
  else if n % TimeUnit.hour.nanos = 0 then ['0', 'm', '0', 's']
  else ['0', 's']

section Endings

variable {c name : Char} {front digits s : List Char} {n : Nat}

/-- Zero is the only number that is a single zero. -/
theorem Numeral.eq_zero_iff
    (h : Numeral digits n) :
    digits = ['0'] ↔ n = 0 := by
  constructor
  · rintro rfl
    exact h.value.symm
  · rintro rfl
    obtain ⟨c, rest, rfl⟩ := List.exists_cons_of_ne_nil h.ne_nil
    have hsplit : digitsValue (c :: rest) =
        digitsValue [c] * Nat.pow 10 rest.length + digitsValue rest :=
      digitsValue_append [c] rest
    have hpos : 0 < Nat.pow 10 rest.length := Nat.pow_pos (by decide)
    have hfirst : digitsValue [c] = 0 := by
      rw [h.value] at hsplit
      refine (Nat.mul_eq_zero.mp ?_).resolve_right (Nat.ne_of_gt hpos)
      omega
    refine h.noZero ?_
    rw [List.head?_cons, eq_zero_of_digitsValue (h.digits c List.mem_cons_self) hfirst]

theorem suffix_append_name_iff :
    [c, '0', name] <:+ s ++ [name] ↔ [c, '0'] <:+ s := by
  rw [show [c, '0', name] = [c, '0'] ++ [name] from rfl, List.suffix_append_self_iff]

/-- A number with a unit is a zero right behind some other character exactly if the number is zero
and the text in front of it ends in that character. -/
theorem zero_suffix_iff
    (hc : c.isDigit = false)
    (h : Numeral digits n) :
    [c, '0', name] <:+ front ++ digits ++ [name] ↔ n = 0 ∧ front.getLast? = some c := by
  rw [suffix_append_name_iff, ← h.eq_zero_iff]
  constructor
  · rintro ⟨t, ht⟩
    have hnot : c ∉ digits := fun hmem => by
      have := h.digits c hmem
      rw [hc] at this
      cases this
    rcases List.append_eq_append_iff.mp ht with ⟨behind, hfront, hends⟩ | ⟨before, _, hdigits⟩
    · -- the character is no digit, so it stands in front of the number
      match behind, hends with
      | [], hends => simp [show digits = [c, '0'] from hends.symm] at hnot
      | d :: behind, hends =>
          obtain ⟨rfl, htail⟩ := List.cons.inj hends
          obtain ⟨rfl, hdigits⟩ | ⟨_, hnil⟩ := List.singleton_eq_append_iff.mp htail
          · exact ⟨hdigits, by simp [hfront]⟩
          · exact absurd hnil h.ne_nil
    · simp [hdigits] at hnot
  · rintro ⟨rfl, hlast⟩
    obtain ⟨t, rfl⟩ := List.getLast?_eq_some_iff.mp hlast
    exact ⟨t, by simp⟩

theorem not_suffix_of_getLast?
    {ending : List Char}
    (hending : ending ≠ [])
    (h : s.getLast? ≠ ending.getLast?) :
    ¬ ending <:+ s := by
  rintro ⟨t, rfl⟩
  obtain ⟨c, hc⟩ := Option.isSome_iff_exists.mp (List.getLast?_isSome.mpr hending)
  simp [List.getLast?_append, hc] at h

theorem dropTwoAfter_of_not_suffix
    {ending : List Char}
    (h : ¬ ending <:+ s) :
    dropTwoAfter ending s = s := by
  rw [dropTwoAfter, if_neg]
  rwa [List.isSuffixOf_iff_suffix]

/-- A remainder of zero behind a unit is dropped together with its own unit. -/
theorem dropTwoAfter_zero
    (name : Char)
    (h : front.getLast? = some c) :
    dropTwoAfter [c, '0', name] (front ++ ['0', name]) = front := by
  obtain ⟨t, rfl⟩ := List.getLast?_eq_some_iff.mp h
  have hsuffix : [c, '0', name] <:+ t ++ [c] ++ ['0', name] := ⟨t, by simp⟩
  rw [dropTwoAfter, if_pos (List.isSuffixOf_iff_suffix.mpr hsuffix)]
  refine List.take_left' ?_
  simp

end Endings

section Briefness

/-- The text of a count of nanoseconds, with a sign or without one, is made brief. -/
structure Shortens
    (sign s : List Char)
    (n : Nat)
    (b : List Char) :
    Prop where
  dropped : dropTwoAfter ['h', '0', 'm'] (dropTwoAfter ['m', '0', 's'] (sign ++ s)) = sign ++ b
  remainder : s = b ++ zeroRemainder n
  magnitude : Magnitude b n
  noSeconds : ¬ ['m', '0', 's'] <:+ sign ++ b
  noMinutes : ¬ ['h', '0', 'm'] <:+ sign ++ b

variable {sign s : List Char} {n : Nat}

/-- A text without zero seconds behind minutes is brief already. -/
theorem shortens_self
    (hmagnitude : Magnitude s n)
    (hremainder : zeroRemainder n = [])
    (hlast : s.getLast? = some 's')
    (hnone : ¬ ['m', '0', 's'] <:+ sign ++ s) :
    Shortens sign s n s := by
  have hminutes : ¬ ['h', '0', 'm'] <:+ sign ++ s := by
    refine not_suffix_of_getLast? (by decide) ?_
    simp [List.getLast?_append, hlast]
  refine ⟨?_, ?_, hmagnitude, hnone, hminutes⟩
  · rw [dropTwoAfter_of_not_suffix hnone, dropTwoAfter_of_not_suffix hminutes]
  · rw [hremainder, List.append_nil]

/-- The hours or the minutes end in the name of their unit, if they are there. -/
theorem ClockPart.getLast?_append
    {unit : TimeUnit}
    {count : Nat}
    (h : ClockPart n unit count s)
    (front : List Char) :
    (front ++ s).getLast? = if unit.nanos ≤ n then unit.symbol.getLast? else front.getLast? := by
  cases h with
  | reached hreached _ =>
      rw [if_pos hreached]
      cases unit <;> simp [TimeUnit.symbol, List.getLast?_append]
  | notReached hnot =>
      rw [if_neg (Nat.not_le_of_lt hnot), List.append_nil]

/-- A fraction counts for something, and it does not end in a zero. -/
theorem Fraction.pos_of_ne_nil
    {places parts : Nat}
    (h : Fraction places s parts)
    (hs : s ≠ []) :
    0 < parts ∧ s.getLast? ≠ some '0' := by
  cases h with
  | none => exact absurd rfl hs
  | @digits s zeros hdigits hne hlast _ =>
      obtain ⟨d, hd⟩ := Option.isSome_iff_exists.mp (List.getLast?_isSome.mpr hne)
      obtain ⟨t, rfl⟩ := List.getLast?_eq_some_iff.mp hd
      have hpow : 0 < Nat.pow 10 zeros := Nat.pow_pos (by decide)
      refine ⟨Nat.mul_pos (Nat.pos_of_ne_zero fun hzero => hlast ?_) hpow, ?_⟩
      · rw [digitsValue_append] at hzero
        rw [hd, eq_zero_of_digitsValue (hdigits d (by simp)) (by omega)]
      · rw [List.getLast?_cons_of_ne_nil hne]
        exact hlast

theorem Spell.magnitude
    {cs : List Component}
    (h : Spell cs s)
    (hn : n ≠ 0)
    (htotal : total cs = n) :
    Magnitude s n := by
  subst htotal
  refine .components h ?_
  rintro rfl
  exact hn rfl

/-- Hours and minutes without seconds are brief, and hours without minutes too. -/
theorem exists_shortens_of_minutes
    {h m : Nat}
    {hours minutes : List Char}
    (hpos : n ≠ 0)
    (hn : n = h * TimeUnit.hour.nanos + m * TimeUnit.minute.nanos)
    (hm : m < 60)
    (hhours : ClockPart n .hour h hours)
    (hminutes : ClockPart n .minute m minutes) :
    ∃ b, Shortens sign (hours ++ minutes ++ ['0', 's']) n b := by
  obtain ⟨cs, hcs, hcsTotal⟩ := hhours.exists_spell (by omega)
  obtain ⟨ds, hds, hdsTotal⟩ := hminutes.exists_spell (by omega)
  have hhour : TimeUnit.hour.nanos = 3_600_000_000_000 := rfl
  have hminute : TimeUnit.minute.nanos = 60_000_000_000 := rfl
  rw [hhour, hminute] at hn
  have hwhole : n % TimeUnit.minute.nanos = 0 := by
    rw [hminute]
    omega
  have hlast : (sign ++ hours ++ minutes).getLast? = some 'm' := by
    rw [hminutes.getLast?_append, if_pos (by omega)]
    rfl
  have hseconds : dropTwoAfter ['m', '0', 's'] (sign ++ (hours ++ minutes ++ ['0', 's'])) =
      sign ++ hours ++ minutes := by
    rw [← dropTwoAfter_zero 's' hlast]
    simp
  have hnot : ¬ (n = 0 ∨ n % TimeUnit.minute.nanos ≠ 0) :=
    not_or.mpr ⟨hpos, not_not.mpr hwhole⟩
  cases hminutes with
  | notReached hlt => omega
  | @reached digits _ hdigits =>
      by_cases hzero : m = 0
      · subst hzero
        obtain rfl := hdigits.eq_zero_iff.mpr rfl
        have hhoursLast : (sign ++ hours).getLast? = some 'h' := by
          rw [hhours.getLast?_append, if_pos (by omega)]
          rfl
        have hdropped := dropTwoAfter_zero 'm' hhoursLast
        refine ⟨hours, ?_, ?_, hcs.magnitude hpos ?_, ?_, ?_⟩
        · rw [hseconds]
          exact hdropped
        · rw [zeroRemainder, if_neg hnot, if_pos (by rw [hhour]; omega)]
          simp [TimeUnit.symbol]
        · rw [hcsTotal, hhour]
          omega
        · exact not_suffix_of_getLast? (by decide) (by simp [hhoursLast])
        · exact not_suffix_of_getLast? (by decide) (by simp [hhoursLast])
      · have hends : ['h', '0', 'm'] <:+ sign ++ hours ++ digits ++ ['m'] ↔ _ :=
          zero_suffix_iff rfl hdigits
        have hkept : ¬ ['h', '0', 'm'] <:+ sign ++ (hours ++ (digits ++ ['m'])) := by
          simpa [hzero] using hends.not
        refine ⟨hours ++ (digits ++ ['m']), ?_, ?_, (hcs.append hds).magnitude hpos ?_, ?_, hkept⟩
        · rw [hseconds, List.append_assoc]
          exact dropTwoAfter_of_not_suffix hkept
        · rw [zeroRemainder, if_neg hnot, if_neg (by rw [hhour]; omega)]
          rfl
        · rw [total_append, hcsTotal, hdsTotal, hhour, hminute, hn]
        · refine not_suffix_of_getLast? (by decide) ?_
          simp [List.getLast?_append]

/-- Seconds that are not whole minutes do not end in zero seconds. -/
theorem not_zeroSeconds
    {seconds parts : Nat}
    {digits fraction : List Char}
    (hseconds : Numeral digits seconds)
    (hfraction : Fraction 9 fraction parts)
    (hsome : ¬ (seconds = 0 ∧ fraction = []))
    (front : List Char) :
    0 < seconds + parts ∧ ¬ ['m', '0', 's'] <:+ front ++ digits ++ fraction ++ ['s'] := by
  by_cases hnone : fraction = []
  · subst hnone
    have hne : seconds ≠ 0 := fun hzero => hsome ⟨hzero, rfl⟩
    refine ⟨by omega, ?_⟩
    rw [List.append_nil, zero_suffix_iff rfl hseconds]
    exact fun hends => hne hends.1
  · obtain ⟨hpos, hends⟩ := hfraction.pos_of_ne_nil hnone
    refine ⟨by omega, ?_⟩
    rw [suffix_append_name_iff]
    refine not_suffix_of_getLast? (by decide) ?_
    rw [List.getLast?_append]
    simpa [hnone] using hends

/-- A number of nanoseconds, microseconds or milliseconds does not end in zero seconds. -/
theorem not_zeroSeconds_of_small
    {unit : TimeUnit}
    (hunit : unit ∈ smallUnits)
    (front : List Char) :
    ¬ ['m', '0', 's'] <:+ front ++ unit.symbol := by
  obtain ⟨c, hc, hsymbol⟩ : ∃ c, c ≠ '0' ∧ unit.symbol = [c] ++ ['s'] := by
    simp only [smallUnits, List.mem_cons, List.not_mem_nil, or_false] at hunit
    rcases hunit with rfl | rfl | rfl
    · exact ⟨'n', by decide, rfl⟩
    · exact ⟨'\u00B5', by decide, rfl⟩
    · exact ⟨'m', by decide, rfl⟩
  rw [hsymbol, ← List.append_assoc, suffix_append_name_iff]
  refine not_suffix_of_getLast? (by decide) ?_
  simpa [List.getLast?_append] using hc

/-- The canonical text of a count is made brief by dropping the remainder of zero. -/
theorem CanonicalMagnitude.exists_shortens
    (h : CanonicalMagnitude s n)
    (hsign : sign = [] ∨ sign = ['-']) :
    ∃ b, Shortens sign s n b := by
  have hmagnitude := h.magnitude
  have hsecond : TimeUnit.second.nanos = 1_000_000_000 := rfl
  have hminute : TimeUnit.minute.nanos = 60_000_000_000 := rfl
  have hhour : TimeUnit.hour.nanos = 3_600_000_000_000 := rfl
  cases h with
  | zero =>
      refine ⟨_, shortens_self hmagnitude rfl rfl ?_⟩
      rcases hsign with rfl | rfl <;> decide
  | @small _ _ unit whole fraction hsmall hunit hone _ _ _ _ =>
      have hne : n ≠ 0 := by
        rintro rfl
        simp at hone
      have hrest : n % TimeUnit.minute.nanos ≠ 0 := by
        rw [Nat.mod_eq_of_lt (by omega)]
        exact hne
      have hlast : (whole ++ fraction ++ unit.symbol).getLast? = some 's' := by
        simp only [smallUnits, List.mem_cons, List.not_mem_nil, or_false] at hunit
        rcases hunit with rfl | rfl | rfl <;> simp [TimeUnit.symbol, List.getLast?_append]
      refine ⟨_, shortens_self hmagnitude (if_pos (Or.inr hrest)) hlast ?_⟩
      rw [← List.append_assoc]
      exact not_zeroSeconds_of_small hunit _
  | @clock _ h m s parts hours minutes seconds fraction hreached hn hm hs hparts hhours hminutes
      hseconds hfraction =>
      have hrest : n % TimeUnit.minute.nanos = s * 1_000_000_000 + parts := by
        rw [hhour, hminute, hsecond] at hn
        rw [hminute]
        omega
      by_cases hwhole : s = 0 ∧ fraction = []
      · obtain ⟨rfl, rfl⟩ := hwhole
        cases hfraction
        obtain rfl := hseconds.eq_zero_iff.mpr rfl
        have hpos : n ≠ 0 := by omega
        have hminutesOnly : n = h * TimeUnit.hour.nanos + m * TimeUnit.minute.nanos := by omega
        have hshort : ∃ b, Shortens sign (hours ++ minutes ++ ['0', 's']) n b :=
          exists_shortens_of_minutes hpos hminutesOnly hm hhours hminutes
        simpa [TimeUnit.symbol] using hshort
      · obtain ⟨hpos, hends⟩ :=
          not_zeroSeconds hseconds hfraction hwhole (sign ++ hours ++ minutes)
        have hlast : (hours ++ minutes ++ seconds ++ fraction ++ ['s']).getLast? = some 's' := by
          simp [List.getLast?_append]
        refine ⟨_, shortens_self hmagnitude (if_pos (Or.inr ?_)) hlast ?_⟩
        · omega
        · simpa [TimeUnit.symbol] using hends

/-- The text and the brief text of a duration are its sign with a text that is made brief. -/
theorem exists_brief
    (d : Duration) :
    ∃ s b, Shortens (if d.nanos < 0 then ['-'] else []) s d.nanos.natAbs b ∧
      d.text.toList = (if d.nanos < 0 then ['-'] else []) ++ s ∧
      d.brief.toList = (if d.nanos < 0 then ['-'] else []) ++ b := by
  obtain ⟨s, hcanonical, htext⟩ := d.canonicalText_text
  have hsign : (if d.nanos < 0 then ['-'] else []) = [] ∨
      (if d.nanos < 0 then ['-'] else []) = ['-'] := by
    split
    · exact Or.inr rfl
    · exact Or.inl rfl
  obtain ⟨b, hshort⟩ := hcanonical.exists_shortens hsign
  have hfull : d.text.toList = (if d.nanos < 0 then ['-'] else []) ++ s := by
    rw [htext]
    split <;> rfl
  refine ⟨s, b, hshort, hfull, ?_⟩
  rw [text, String.toList_ofList] at hfull
  rw [brief, String.toList_ofList, hfull, hshort.dropped]

theorem denotes_brief
    (d : Duration)
    (hlimit : d.nanos.natAbs ≤ limit) :
    Denotes d.brief d := by
  obtain ⟨s, b, hshort, _, hbrief⟩ := d.exists_brief
  refine hshort.magnitude.denotes ?_ hlimit
  rw [hbrief]
  split <;> rfl

/-- The least duration is no multiple of a minute, so its brief text is its text. -/
theorem faultIn_brief_of_least
    {d : Duration}
    (hleast : d.nanos = -0x8000_0000_0000_0000) :
    FaultIn d.brief .malformed := by
  obtain ⟨s, b, hshort, htext, hbrief⟩ := d.exists_brief
  have hremainder : zeroRemainder d.nanos.natAbs = [] := by
    rw [hleast]
    decide
  have hsame : d.brief = d.text := by
    rw [← String.toList_inj, hbrief, htext, hshort.remainder, hremainder, List.append_nil]
  have hcanonical := d.canonicalText_text
  rw [← hsame] at hcanonical
  refine faultIn_of_canonicalText hcanonical ?_
  rw [hleast]
  decide

theorem natAbs_le_limit
    {d : Duration}
    (hnot : d.nanos ≠ -0x8000_0000_0000_0000) :
    d.nanos.natAbs ≤ limit := by
  have hrange := d.inRange
  unfold limit
  omega

theorem read_brief
    (d : Duration) :
    read d.brief =
      if d.nanos = -0x8000_0000_0000_0000 then .error .malformed else .ok d := by
  split
  · rename_i hleast
    exact read_eq_error_iff.mpr (faultIn_brief_of_least hleast)
  · rename_i hnot
    exact read_eq_ok_iff.mpr (d.denotes_brief (natAbs_le_limit hnot))

/-- What a brief text is read as tells which duration it is of. -/
theorem eq_of_brief_eq
    {d e : Duration}
    (h : d.brief = e.brief) :
    d = e := by
  have hread := d.read_brief
  rw [h, e.read_brief] at hread
  split at hread
  · rename_i he
    split at hread
    · rename_i hd
      exact eq_of_nanos_eq (hd.trans he.symm)
    · cases hread
  · split at hread
    · cases hread
    · exact (Except.ok.inj hread).symm

-- the zero of ten minutes is no remainder
example : brief ⟨-4_200_000_000_000, by decide⟩ = "-1h10m" := by decide +kernel

end Briefness

end Duration

/-- The brief text of a duration lacks of the full one the remainder of zero seconds behind minutes,
and that of zero minutes behind hours, and nothing else.  No two durations have the same, and all
but the least are read back from it. -/
theorem Autoscaling.readDuration_brief
    (d : Duration) :
    d.text.toList = d.brief.toList ++ Duration.zeroRemainder d.nanos.natAbs ∧
      ¬ ['m', '0', 's'] <:+ d.brief.toList ∧
      ¬ ['h', '0', 'm'] <:+ d.brief.toList ∧
      (∀ e : Duration, d.brief = e.brief → d = e) ∧
      (d.nanos ≠ -0x8000_0000_0000_0000 → readDuration d.brief = .ok d) := by
  obtain ⟨s, b, hshort, htext, hbrief⟩ := d.exists_brief
  refine ⟨?_, ?_, ?_, fun e => Duration.eq_of_brief_eq, fun hnot => ?_⟩
  · rw [htext, hbrief, hshort.remainder, List.append_assoc]
  · rw [hbrief]
    exact hshort.noSeconds
  · rw [hbrief]
    exact hshort.noMinutes
  · rw [readDuration, d.read_brief, if_neg hnot]
    rfl

end ServingAdmin
