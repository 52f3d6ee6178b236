import ServingAdmin.Autoscaling.Field
import ServingAdmin.Proofs.Duration.Component

/-!
# Reading durations is right

The reader takes exactly the texts of the grammar, for the durations that they are written
for, and finds the fault of every other text.

The loop over the components is followed by induction twice: along the components that are
written, so that all of them are read, and along the text that is read, so that nothing but
components is taken.
-/

namespace ServingAdmin
namespace Duration

open Text

section Loop

theorem readComponents_nil
    (sum : { n : Nat // n ≤ limit }) :
    readComponents sum [] = .ok sum := by
  rw [readComponents]
  rfl

theorem readComponents_of_error
    {s : List Char}
    {fault : Fault}
    (hs : s ≠ [])
    (hread : Component.read s = .error fault)
    (sum : { n : Nat // n ≤ limit }) :
    readComponents sum s = .error fault := by
  rw [readComponents, if_neg hs]
  split
  · rename_i hfault
    exact congrArg _ (Except.error.inj (hfault.symm.trans hread))
  · rename_i hok
    cases hok.symm.trans hread

theorem readComponents_of_ok
    {s rest : List Char}
    {c : Component}
    (hread : Component.read s = .ok (c, rest))
    (sum : { n : Nat // n ≤ limit }) :
    readComponents sum s =
      if h : sum.val + c.worth ≤ limit then readComponents ⟨sum.val + c.worth, h⟩ rest
      else .error .malformed := by
  have hs : s ≠ [] := by
    rintro rfl
    cases hread
  rw [readComponents, if_neg hs]
  split
  · rename_i herror
    cases herror.symm.trans hread
  · rename_i hok
    cases hok.symm.trans hread
    simp only [Component.nanos_eq_worth]

/-- Good components are read one after the other up to what stands behind them. -/
theorem readComponents_of_spell
    {cs : List Component}
    {good : List Char}
    (h : Spell cs good)
    {bad : List Char}
    (hbad : EndsName bad)
    (sum : { n : Nat // n ≤ limit })
    (hsum : sum.val + total cs ≤ limit) :
    readComponents sum (good ++ bad) = readComponents ⟨sum.val + total cs, hsum⟩ bad := by
  induction h generalizing sum with
  | nil => rfl
  | @cons c cs s rest hc hrest ih =>
      rw [total] at hsum
      have hread := Component.read_of_writtenAs hc (hrest.endsName hbad)
      have hfirst : sum.val + c.worth ≤ limit := by omega
      rw [List.append_assoc, readComponents_of_ok hread, dif_pos hfirst,
        ih ⟨sum.val + c.worth, hfirst⟩ (by simp only; omega)]
      congr 2
      simp only [total]
      omega

/-- Reading ends behind components that make up the text, or stops at one that is at fault behind
others that are good. -/
theorem readComponents_cases
    (sum : { n : Nat // n ≤ limit })
    (s : List Char) :
    (∃ cs, Spell cs s ∧ ∃ hsum : sum.val + total cs ≤ limit,
        readComponents sum s = .ok ⟨sum.val + total cs, hsum⟩) ∨
      ∃ fault, readComponents sum s = .error fault ∧
        ∃ cs good bad, s = good ++ bad ∧ Spell cs good ∧ sum.val + total cs ≤ limit ∧
          (cs = [] ∨ BeginsNumber bad) ∧ BadComponent (sum.val + total cs) bad fault := by
  induction hlength : s.length using Nat.strongRecOn generalizing sum s with
  | ind length ih =>
      by_cases hs : s = []
      · subst hs
        exact Or.inl ⟨[], .nil, sum.property, readComponents_nil sum⟩
      · cases hread : Component.read s with
        | error fault =>
            exact Or.inr ⟨fault, readComponents_of_error hs hread sum, [], [], s, rfl, .nil,
              sum.property, Or.inl rfl, Component.bad_of_read hread _⟩
        | ok r =>
            obtain ⟨c, rest⟩ := r
            have hlt := Component.length_lt_of_read hread
            obtain ⟨text, rfl, hc, hends⟩ := Component.writtenAs_of_read hread
            rw [readComponents_of_ok hread]
            by_cases hsum : sum.val + c.worth ≤ limit
            · rw [dif_pos hsum]
              have hmore : ∀ cs, sum.val + total (c :: cs) = sum.val + c.worth + total cs := by
                intro cs
                rw [total]
                omega
              rcases ih _ (hlength ▸ hlt) ⟨_, hsum⟩ rest rfl with
                ⟨cs, hspell, htotal, hok⟩ |
                ⟨fault, herror, cs, good, bad, hrest, hspell, htotal, hbegins, hbad⟩
              · refine Or.inl ⟨c :: cs, .cons hc hspell, hmore cs ▸ htotal, ?_⟩
                simp only [hok, hmore]
              · refine Or.inr ⟨fault, herror, c :: cs, text ++ good, bad, by simp [hrest],
                  .cons hc hspell, hmore cs ▸ htotal, Or.inr ?_, hmore cs ▸ hbad⟩
                -- right behind the first component a number begins because its name ends there
                rcases hbegins with rfl | hbegins
                · cases hspell
                  rw [List.nil_append] at hrest
                  rcases hends with hnil | hbegins
                  · rw [hnil, readComponents_nil] at herror
                    cases herror
                  · exact hrest ▸ hbegins
                · exact hbegins
            · rw [dif_neg hsum]
              exact Or.inr ⟨.malformed, rfl, [], [], text ++ rest, rfl, .nil, sum.property,
                Or.inl rfl, .tooMuch hc hends (Nat.lt_of_not_le hsum)⟩

end Loop

section Whole

/-- A text has one sign or none, in one way. -/
theorem splitSign_eq_iff
    {s rest : List Char}
    {negative : Bool} :
    splitSign s = (negative, rest) ↔ Signed s negative rest := by
  constructor
  · intro h
    unfold splitSign at h
    split at h
    · cases h
      exact .minus rest
    · cases h
      exact .plus rest
    · rename_i hminus hplus
      cases h
      refine .bare (fun hhead => ?_) fun hhead => ?_
      · obtain ⟨after, rfl⟩ := List.head?_eq_some_iff.mp hhead
        exact hminus after rfl
      · obtain ⟨after, rfl⟩ := List.head?_eq_some_iff.mp hhead
        exact hplus after rfl
  · intro h
    cases h with
    | minus => rfl
    | plus => rfl
    | bare hminus hplus =>
        unfold splitSign
        split
        · simp at hminus
        · simp at hplus
        · rfl

/-- A bare zero is no component. -/
theorem not_spell_zero
    {cs : List Component}
    (hcs : cs ≠ []) :
    ¬ Spell cs ['0'] := by
  intro h
  generalize hs : ['0'] = s at h
  cases h with
  | nil => exact hcs rfl
  | @cons c cs s rest hc hrest =>
      have hends := hrest.endsName (Or.inl rfl : EndsName [])
      rw [List.append_nil] at hends
      have hread := Component.read_of_writtenAs hc hends
      rw [← hs] at hread
      cases hread

theorem readMagnitude_of_magnitude
    {s : List Char}
    {n : Nat}
    (h : Magnitude s n)
    (hn : n ≤ limit) :
    readMagnitude s = .ok ⟨n, hn⟩ := by
  cases h with
  | zero => rfl
  | @components cs s hspell hcs =>
      have hzero : s ≠ ['0'] := by
        rintro rfl
        exact not_spell_zero hcs hspell
      have hne : s ≠ [] := by
        simpa using (hspell.beginsNumber hcs []).ne_nil
      have hread := readComponents_of_spell hspell (Or.inl rfl) ⟨0, Nat.zero_le _⟩
        (by simpa using hn)
      rw [List.append_nil, readComponents_nil] at hread
      rw [readMagnitude, if_neg hzero, if_neg hne, hread]
      simp

theorem magnitude_of_readMagnitude
    {s : List Char}
    {n : { n : Nat // n ≤ limit }}
    (h : readMagnitude s = .ok n) :
    Magnitude s n.val := by
  unfold readMagnitude at h
  split at h
  · rename_i hzero
    cases h
    subst hzero
    exact .zero
  · split at h
    · cases h
    · rename_i hne
      rcases readComponents_cases ⟨0, Nat.zero_le _⟩ s with
        ⟨cs, hspell, htotal, hok⟩ | ⟨fault, herror, _⟩
      · cases hok.symm.trans h
        have hcs : cs ≠ [] := by
          rintro rfl
          cases hspell
          exact hne rfl
        simpa using Magnitude.components hspell hcs
      · cases herror.symm.trans h

theorem readMagnitude_of_faulty
    {s : List Char}
    {fault : Fault}
    (h : FaultyMagnitude s fault) :
    readMagnitude s = .error fault := by
  obtain ⟨hzero, cs, good, bad, rfl, hspell, htotal, hbegins, hbad⟩ := h
  have hread := Component.read_of_bad hbad
  rw [readMagnitude, if_neg hzero]
  by_cases hnil : good ++ bad = []
  · obtain ⟨rfl, rfl⟩ := List.append_eq_nil_iff.mp hnil
    rcases hread with herror | ⟨rfl, c, rest, hok, _⟩
    · cases herror
      rfl
    · cases hok
  · have hgood : readComponents ⟨0, Nat.zero_le _⟩ (good ++ bad) =
        readComponents ⟨total cs, htotal⟩ bad := by
      rcases hbegins with rfl | hbegins
      · cases hspell
        rfl
      · rw [readComponents_of_spell hspell (Or.inr hbegins) _ (by simpa using htotal)]
        simp
    have hne : bad ≠ [] := by
      rcases hbegins with rfl | hbegins
      · cases hspell
        exact hnil
      · exact hbegins.ne_nil
    rw [if_neg hnil, hgood]
    rcases hread with herror | ⟨rfl, c, rest, hok, hsum⟩
    · exact readComponents_of_error hne herror _
    · rw [readComponents_of_ok hok]
      exact dif_neg (Nat.not_le_of_lt hsum)

theorem faulty_of_readMagnitude
    {s : List Char}
    {fault : Fault}
    (h : readMagnitude s = .error fault) :
    FaultyMagnitude s fault := by
  unfold readMagnitude at h
  split at h
  · cases h
  · rename_i hzero
    refine ⟨hzero, ?_⟩
    split at h
    · rename_i hnil
      cases h
      subst hnil
      exact ⟨[], [], [], rfl, .nil, Nat.zero_le _, Or.inl rfl, Component.bad_of_read rfl _⟩
    · rcases readComponents_cases ⟨0, Nat.zero_le _⟩ s with
        ⟨cs, hspell, htotal, hok⟩ |
        ⟨fault', herror, cs, good, bad, hs, hspell, htotal, hbegins, hbad⟩
      · cases hok.symm.trans h
      · cases herror.symm.trans h
        rw [Nat.zero_add] at htotal hbad
        exact ⟨cs, good, bad, hs, hspell, htotal, hbegins, hbad⟩

/-- The texts that are taken are those that are written for a duration. -/
theorem read_eq_ok_iff
    {raw : String}
    {d : Duration} :
    read raw = .ok d ↔ Denotes raw d := by
  rcases hsplit : splitSign raw.toList with ⟨negative, s⟩
  have hsigned := splitSign_eq_iff.mp hsplit
  simp only [read, hsplit]
  constructor
  · intro h
    cases hmagnitude : readMagnitude s with
    | error fault =>
        rw [hmagnitude] at h
        cases h
    | ok n =>
        rw [hmagnitude] at h
        cases h
        exact ⟨negative, s, n, hsigned, magnitude_of_readMagnitude hmagnitude, n.property, rfl⟩
  · rintro ⟨negative', s', n, hsigned', hmagnitude, hn, hd⟩
    cases hsplit.symm.trans (splitSign_eq_iff.mpr hsigned')
    rw [readMagnitude_of_magnitude hmagnitude hn]
    exact congrArg _ (eq_of_nanos_eq ((nanos_ofMagnitude _ _ _).trans hd.symm))

/-- The texts that are not taken are those with a fault, and that is the one that is found. -/
theorem read_eq_error_iff
    {raw : String}
    {fault : Fault} :
    read raw = .error fault ↔ FaultIn raw fault := by
  rcases hsplit : splitSign raw.toList with ⟨negative, s⟩
  have hsigned := splitSign_eq_iff.mp hsplit
  simp only [read, hsplit]
  constructor
  · intro h
    cases hmagnitude : readMagnitude s with
    | ok n =>
        rw [hmagnitude] at h
        cases h
    | error fault' =>
        rw [hmagnitude] at h
        cases h
        exact ⟨negative, s, hsigned, faulty_of_readMagnitude hmagnitude⟩
  · rintro ⟨negative', s', hsigned', hfaulty⟩
    cases hsplit.symm.trans (splitSign_eq_iff.mpr hsigned')
    rw [readMagnitude_of_faulty hfaulty]
    rfl

-- the sum is past the limit only behind the name that is not known
example : read "5d9999999999h" = .error (.unknownUnit "d") := by cbv

end Whole

end Duration

/-- A text is read as a duration exactly if it is written for that duration.  Otherwise it fails for
the fault of its leftmost bad component, and the failure tells the text. -/
theorem Autoscaling.readDuration_iff
    (raw : String) :
    (∀ d, readDuration raw = .ok d ↔ Duration.Denotes raw d) ∧
      ∀ failure, readDuration raw = .error failure ↔
        ∃ fault, Duration.FaultIn raw fault ∧ failure = .of (.badDuration fault raw) := by
  simp only [← Duration.read_eq_ok_iff, ← Duration.read_eq_error_iff, readDuration]
  cases Duration.read raw with
  | ok d =>
      constructor
      · intro d'
        constructor
        · rintro ⟨⟩
          rfl
        · rintro ⟨⟩
          rfl
      · intro failure
        constructor
        · rintro ⟨⟩
        · rintro ⟨_, ⟨⟩, _⟩
  | error fault =>
      constructor
      · intro d
        constructor
        · rintro ⟨⟩
        · rintro ⟨⟩
      · intro failure
        constructor
        · rintro ⟨⟩
          exact ⟨fault, rfl, rfl⟩
        · rintro ⟨_, ⟨⟩, rfl⟩
          rfl

end ServingAdmin
