import ServingAdmin.Proofs.Autoscaling.Accepted
import ServingAdmin.Proofs.Duration.Seconds

/-!
# The canonical text of the stable window

The stable window takes a duration of whole seconds from six seconds to an hour, however it is
written, and stores the plain numeral of its seconds.  What is rejected is so for the first of these
that applies: it is no duration, it is outside of the range, or it is not whole.

The numeral comes out of a rounded division, but seconds up to an hour are divided without a
remainder and written without a fraction.  So there is one text for each window, and this text is
accepted as itself.
-/

namespace ServingAdmin
namespace Autoscaling

/-- A duration of whole seconds that is a window. -/
structure IsWindow
    (d : Duration)
    (seconds : Nat) :
    Prop where
  nanos : d.nanos = seconds * 1_000_000_000
  atLeast : 6 ≤ seconds
  atMost : seconds ≤ 3600

section Window

variable {raw raw' stored : String} {d : Duration} {seconds : Nat}

theorem named?_stableWindow :
    ∃ f, Field.named? "stable-window" = some f ∧ f.name = "stable-window" ∧ f.kind = .window :=
  ⟨_, rfl, rfl, rfl⟩

/-- The windows are the durations that pass the check. -/
theorem exists_isWindow_iff
    (d : Duration) :
    (∃ seconds, IsWindow d seconds) ↔
      windowMin ≤ d ∧ d ≤ windowMax ∧ d.isWholeSeconds = true := by
  have hmin : windowMin ≤ d ↔ 6_000_000_000 ≤ d.nanos := Iff.rfl
  have hmax : d ≤ windowMax ↔ d.nanos ≤ 3_600_000_000_000 := Iff.rfl
  rw [hmin, hmax, Duration.isWholeSeconds_iff]
  constructor
  · rintro ⟨seconds, hnanos, hleast, hmost⟩
    omega
  · rintro ⟨hleast, hmost, hwhole⟩
    refine ⟨d.nanos.natAbs / 1_000_000_000, ?_, ?_, ?_⟩ <;> omega

theorem IsWindow.secondsText
    (h : IsWindow d seconds) :
    d.secondsText = toString seconds ++ "s" := by
  obtain ⟨hnanos, _, hmost⟩ := h
  exact Duration.secondsText_of_whole hnanos (by omega)

/-- The stored text of a window is written for it. -/
theorem IsWindow.denotes
    (h : IsWindow d seconds) :
    Duration.Denotes (toString seconds ++ "s") d := by
  rw [← h.secondsText]
  refine Duration.StoredExactly.denotes (Or.inl ?_)
  have hseparate : Binary64.separateCounts = 8_388_608_000_000_000 := rfl
  obtain ⟨hnanos, _, hmost⟩ := h
  omega

theorem accept_stableWindow_eq_ok_iff :
    accept "stable-window" raw = .ok stored ↔
      ∃ d seconds, Duration.Denotes raw d ∧ IsWindow d seconds ∧
        stored = toString seconds ++ "s" := by
  obtain ⟨f, hf, _, hkind⟩ := named?_stableWindow
  rw [accept_eq_ok_iff_of_named hf, hkind]
  constructor
  · intro hstores
    cases hstores with
    | @window _ d hd hleast hmost hwhole =>
        obtain ⟨seconds, hwindow⟩ := (exists_isWindow_iff d).mpr ⟨hleast, hmost, hwhole⟩
        exact ⟨d, seconds, hd, hwindow, hwindow.secondsText⟩
  · rintro ⟨d, seconds, hd, hwindow, rfl⟩
    obtain ⟨hleast, hmost, hwhole⟩ := (exists_isWindow_iff d).mp ⟨seconds, hwindow⟩
    rw [← hwindow.secondsText]
    exact .window hd hleast hmost hwhole

/-- The verdict on a text that is written for a duration depends on the duration only. -/
theorem accept_stableWindow_of_denotes
    (hd : Duration.Denotes raw d) :
    accept "stable-window" raw =
      if d < windowMin ∨ windowMax < d then
        .error (.of (.rejectedField "stable-window" (.outsideWindow d)))
      else if d.isWholeSeconds then .ok d.secondsText
      else .error (.of (.rejectedField "stable-window" (.notWholeSeconds d))) := by
  obtain ⟨f, hf, hname, hkind⟩ := named?_stableWindow
  rw [accept, hf]
  simp only [Field.accept, hkind, readDuration_eq_ok_iff.mpr hd, Field.reject, hname]
  rfl

/-- What is accepted is stored as a text for the same window. -/
theorem denotes_of_accept_stableWindow
    (h : accept "stable-window" raw = .ok stored) :
    ∃ d, Duration.Denotes raw d ∧ Duration.Denotes stored d := by
  obtain ⟨d, seconds, hd, hwindow, rfl⟩ := accept_stableWindow_eq_ok_iff.mp h
  exact ⟨d, hd, hwindow.denotes⟩

end Window

/-- A text is accepted for the stable window exactly if it is written for whole seconds from six to
an hour, and is stored as their numeral.  Texts for one duration come to the same, texts that are
stored as one are for the same duration, and the stored text is accepted as itself.  Durations out
of the range are rejected for that, whole or not, and the others for their fraction. -/
theorem accept_stableWindow
    (raw : String) :
    (∀ stored, accept "stable-window" raw = .ok stored ↔
        ∃ d seconds, Duration.Denotes raw d ∧ IsWindow d seconds ∧
          stored = toString seconds ++ "s") ∧
      (∀ raw' d, Duration.Denotes raw d → Duration.Denotes raw' d →
        accept "stable-window" raw' = accept "stable-window" raw) ∧
      (∀ raw' stored, accept "stable-window" raw = .ok stored →
        accept "stable-window" raw' = .ok stored →
          ∃ d, Duration.Denotes raw d ∧ Duration.Denotes raw' d) ∧
      (∀ stored, accept "stable-window" raw = .ok stored →
        accept "stable-window" stored = .ok stored) ∧
      (∀ d, Duration.Denotes raw d →
        d.nanos < 6_000_000_000 ∨ 3_600_000_000_000 < d.nanos →
          accept "stable-window" raw =
            .error (.of (.rejectedField "stable-window" (.outsideWindow d)))) ∧
      ∀ d, Duration.Denotes raw d →
        6_000_000_000 ≤ d.nanos → d.nanos ≤ 3_600_000_000_000 → d.nanos % 1_000_000_000 ≠ 0 →
          accept "stable-window" raw =
            .error (.of (.rejectedField "stable-window" (.notWholeSeconds d))) := by
  refine ⟨fun stored => accept_stableWindow_eq_ok_iff, fun raw' d hd hd' => ?_,
    fun raw' stored h h' => ?_, fun stored h => ?_, fun d hd houtside => ?_,
    fun d hd hleast hmost hfraction => ?_⟩
  · rw [accept_stableWindow_of_denotes hd, accept_stableWindow_of_denotes hd']
  · obtain ⟨d, hd, hstored⟩ := denotes_of_accept_stableWindow h
    obtain ⟨d', hd', hstored'⟩ := denotes_of_accept_stableWindow h'
    have hread := readDuration_eq_ok_iff.mpr hstored
    rw [readDuration_eq_ok_iff.mpr hstored'] at hread
    cases hread
    exact ⟨d, hd, hd'⟩
  · obtain ⟨d, seconds, _, hwindow, rfl⟩ := accept_stableWindow_eq_ok_iff.mp h
    exact accept_stableWindow_eq_ok_iff.mpr ⟨d, seconds, hwindow.denotes, hwindow, rfl⟩
  · rw [accept_stableWindow_of_denotes hd]
    exact if_pos houtside
  · have hinside : ¬ (d < windowMin ∨ windowMax < d) :=
      not_or.mpr ⟨Int.not_lt.mpr hleast, Int.not_lt.mpr hmost⟩
    have hwhole : ¬ d.isWholeSeconds = true := by
      rw [Duration.isWholeSeconds_iff]
      omega
    rw [accept_stableWindow_of_denotes hd, if_neg hinside, if_neg hwhole]

end Autoscaling
end ServingAdmin
