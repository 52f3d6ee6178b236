import ServingAdmin.Proofs.Autoscaling.SettingsRead
import ServingAdmin.Proofs.Duration.Seconds

/-!
# Periods that are read back

The grace period and the retention period take durations of any precision and store their number
of seconds.  A duration whose seconds are stored without a loss is read back as it was given: this
is so for periods of at most 2^23 seconds, and for longer ones of whole seconds.  The bounds are
sharp.  Past them the stored text may write a neighbouring duration, and that of the longest
duration writes one that is too long to be read.
-/

namespace ServingAdmin
namespace Autoscaling

/-- The keys of the periods that may be given in fractions of a second. -/
def periodKeys : List String :=
  ["scale-to-zero-grace-period", "scale-to-zero-pod-retention-period"]

/-- A period is accepted as a duration, and its seconds are stored. -/
theorem exists_of_accept_period
    {key raw stored : String}
    (hkey : key ∈ periodKeys)
    (h : accept key raw = .ok stored) :
    ∃ d, Duration.Denotes raw d ∧ stored = d.secondsText := by
  obtain ⟨f, hf, hstores⟩ := accept_eq_ok_iff.mp h
  have hkind : f.kind = .gracePeriod ∨ f.kind = .retentionPeriod := by
    simp only [periodKeys, List.mem_cons, List.not_mem_nil, or_false] at hkey
    rcases hkey with rfl | rfl
    · cases hf
      exact Or.inl rfl
    · cases hf
      exact Or.inr rfl
  rcases hkind with hkind | hkind
  · rw [hkind] at hstores
    cases hstores with
    | gracePeriod hd _ => exact ⟨_, hd, rfl⟩
  · rw [hkind] at hstores
    cases hstores with
    | retentionPeriod hd _ => exact ⟨_, hd, rfl⟩

/-- An accepted period is stored as the seconds of the duration that was given.  If that is a period
that is stored exactly, the stored text is read as the same duration, also where it is put under
the key of the period. -/
theorem storedPeriod_readsBack
    {key raw stored : String}
    (hkey : key ∈ periodKeys)
    (h : accept key raw = .ok stored) :
    ∃ d, readDuration raw = .ok d ∧ stored = d.secondsText ∧
      (d.StoredExactly →
        readDuration stored = .ok d ∧
          ∀ data : KeyMap String, readPeriod (data.insert key stored) key = .ok d) := by
  obtain ⟨d, hd, rfl⟩ := exists_of_accept_period hkey h
  refine ⟨d, readDuration_eq_ok_iff.mpr hd, rfl, fun hexact => ?_⟩
  have hstored := hexact.denotes
  refine ⟨readDuration_eq_ok_iff.mpr hstored, fun data => ?_⟩
  have hfound : (data.insert key d.secondsText).get? key = some d.secondsText := by
    simp
  rw [readPeriod_eq_ok_iff, effective_of_some hfound, hstored.trimmed]
  exact hstored

/-- A minute and thirty and a half seconds are stored as seconds and read back. -/
theorem storedPeriod_readsBack_halfSecond :
    ("scale-to-zero-grace-period" ∈ periodKeys ∧
        accept "scale-to-zero-grace-period" "1m30.5s" = .ok "90.5s") ∧
      ∃ d : Duration, d.nanos = 90_500_000_000 ∧ readDuration "1m30.5s" = .ok d ∧
        d.StoredExactly ∧ readDuration "90.5s" = .ok d := by
  have hgiven : readDuration "1m30.5s" = .ok ⟨90_500_000_000, by decide⟩ :=
    eq_ok_of_toOption_eq_some (by decide +kernel)
  have htext : (⟨90_500_000_000, by decide⟩ : Duration).secondsText = "90.5s" := by
    decide +kernel
  have haccept : accept "scale-to-zero-grace-period" "1m30.5s" = .ok "90.5s" := by
    rw [← htext]
    exact accept_eq_ok_iff.mpr
      ⟨_, rfl, .gracePeriod (readDuration_eq_ok_iff.mp hgiven) (by decide)⟩
  have hkey : "scale-to-zero-grace-period" ∈ periodKeys := by
    decide
  obtain ⟨d, hread, _, hback⟩ := storedPeriod_readsBack hkey haccept
  obtain rfl := Except.ok.inj (hread.symm.trans hgiven)
  have hexact : Duration.StoredExactly ⟨90_500_000_000, by decide⟩ := Or.inl (by decide)
  exact ⟨⟨hkey, haccept⟩, _, rfl, hread, hexact, (hback hexact).1⟩

/-- The longest duration is accepted as a grace period, but rounding its seconds makes them more
than a duration can have: what is stored for it cannot be read. -/
theorem storedPeriod_longest_unreadable :
    accept "scale-to-zero-grace-period" "9223372036854775807ns" = .ok "9223372036.854776s" ∧
      readDuration "9223372036854775807ns" = .ok ⟨9_223_372_036_854_775_807, by decide⟩ ∧
      readDuration "9223372036.854776s" =
        .error (.of (.badDuration .malformed "9223372036.854776s")) := by
  have hgiven : readDuration "9223372036854775807ns" =
      .ok ⟨9_223_372_036_854_775_807, by decide⟩ :=
    eq_ok_of_toOption_eq_some (by decide +kernel)
  have htext :
      (⟨9_223_372_036_854_775_807, by decide⟩ : Duration).secondsText = "9223372036.854776s" := by
    decide +kernel
  refine ⟨?_, hgiven, ?_⟩
  · rw [← htext]
    exact accept_eq_ok_iff.mpr
      ⟨_, rfl, .gracePeriod (readDuration_eq_ok_iff.mp hgiven) (by decide)⟩
  · have hmagnitude : Duration.Magnitude "9223372036.854776s".toList
        (9_223_372_036_854_776 * Nat.pow 10 3) := by
      have hnumeral : "9223372036.854776s".toList =
          Binary64.numeral 6 9_223_372_036_854_776 ++ ['s'] := by
        decide +kernel
      have hplaces : 6 ≤ 9 := by
        decide
      rw [hnumeral]
      exact Duration.magnitude_numeral hplaces (by decide)
    have hfault : Duration.FaultIn "9223372036.854776s" .malformed :=
      ⟨false, _, hmagnitude.signed false, hmagnitude.faulty (by decide)⟩
    rw [readDuration, Duration.read_eq_error_iff.mpr hfault]
    rfl

end Autoscaling
end ServingAdmin
