import ServingAdmin.Proofs.Autoscaling.Accepted

/-!
# The settings that data hold

Reading the settings succeeds exactly with the settings that the data hold, value by value.
-/

namespace ServingAdmin
namespace Autoscaling

@[simp] theorem context_eq_ok_iff
    {α : Type}
    {problem : Problem}
    {x : Except Failure α}
    {a : α} :
    Failure.context problem x = .ok a ↔ x = .ok a := by
  rw [Failure.context, mapError_eq_ok_iff]

theorem context_eq_error_iff
    {α : Type}
    {problem : Problem}
    {x : Except Failure α}
    {failure : Failure} :
    Failure.context problem x = .error failure ↔
      ∃ cause, x = .error cause ∧ .because problem cause = failure :=
  mapError_eq_error_iff

section Values

variable {data : KeyMap String} {key : String}

theorem readSwitch_eq_ok_iff
    {b : Bool} :
    readSwitch data key = .ok b ↔ readBoolean (effective data key) = some b := by
  rw [readSwitch]
  cases readBoolean (effective data key) with
  | none => simp
  | some _ => simp

theorem readDecimal_eq_ok_iff
    {v : Binary64} :
    readDecimal data key = .ok v ↔ Binary64.read (effective data key) = .ok v := by
  rw [readDecimal, context_eq_ok_iff, mapError_eq_ok_iff]

theorem readPeriod_eq_ok_iff
    {d : Duration} :
    readPeriod data key = .ok d ↔ Duration.Denotes (effective data key) d := by
  rw [readPeriod, context_eq_ok_iff, readDuration_eq_ok_iff]

theorem effective_of_some
    {raw : String}
    (h : data.get? key = some raw) :
    effective data key = Text.trimmed raw := by
  rw [effective, h]

/-- The value that holds for a key depends on nothing but the value under it. -/
theorem effective_congr
    {data' : KeyMap String}
    (h : data'.get? key = data.get? key) :
    effective data' key = effective data key := by
  rw [effective, effective, h]

end Values

/-- Data hold settings: what holds for each key is written for the value of the setting. -/
structure Settings.HeldBy
    (s : Settings)
    (data : KeyMap String) :
    Prop where
  scaleToZero :
    readBoolean (effective data scaleToZeroKey) = some s.scaleToZero
  concurrencyPercentage :
    Binary64.read (effective data "container-concurrency-target-percentage") =
      .ok s.concurrencyPercentage
  concurrencyTarget :
    Binary64.read (effective data "container-concurrency-target-default") =
      .ok s.concurrencyTarget
  requestsPerSecond :
    Binary64.read (effective data "requests-per-second-target-default") = .ok s.requestsPerSecond
  maxScaleUpRate :
    Binary64.read (effective data "max-scale-up-rate") = .ok s.maxScaleUpRate
  maxScaleDownRate :
    Binary64.read (effective data "max-scale-down-rate") = .ok s.maxScaleDownRate
  burstCapacity :
    Binary64.read (effective data "target-burst-capacity") = .ok s.burstCapacity
  panicWindowPercentage :
    Binary64.read (effective data "panic-window-percentage") = .ok s.panicWindowPercentage
  panicThresholdPercentage :
    Binary64.read (effective data "panic-threshold-percentage") = .ok s.panicThresholdPercentage
  stableWindow :
    Duration.Denotes (effective data "stable-window") s.stableWindow
  gracePeriod :
    Duration.Denotes (effective data "scale-to-zero-grace-period") s.gracePeriod
  retentionPeriod :
    Duration.Denotes (effective data "scale-to-zero-pod-retention-period") s.retentionPeriod
  activatorCapacity :
    Binary64.read (effective data "activator-capacity") = .ok s.activatorCapacity
  autoscalerClass :
    effective data "pod-autoscaler-class" = s.autoscalerClass

/-- The settings that are read are those that the data hold. -/
theorem Settings.read_eq_ok_iff
    {data : KeyMap String}
    {s : Settings} :
    Settings.read data = .ok s ↔ s.HeldBy data := by
  rw [Settings.read, context_eq_ok_iff, Settings.readAll]
  simp only [bind_eq_ok_iff, readSwitch_eq_ok_iff, readDecimal_eq_ok_iff, readPeriod_eq_ok_iff]
  constructor
  · rintro ⟨_, h₁, _, h₂, _, h₃, _, h₄, _, h₅, _, h₆, _, h₇, _, h₈, _, h₉, _, h₁₀, _, h₁₁, _, h₁₂,
      _, h₁₃, ⟨⟩⟩
    exact ⟨h₁, h₂, h₃, h₄, h₅, h₆, h₇, h₈, h₉, h₁₀, h₁₁, h₁₂, h₁₃, rfl⟩
  · intro h
    refine ⟨_, h.scaleToZero, _, h.concurrencyPercentage, _, h.concurrencyTarget, _,
      h.requestsPerSecond, _, h.maxScaleUpRate, _, h.maxScaleDownRate, _, h.burstCapacity, _,
      h.panicWindowPercentage, _, h.panicThresholdPercentage, _, h.stableWindow, _, h.gracePeriod,
      _, h.retentionPeriod, _, h.activatorCapacity, ?_⟩
    rw [h.autoscalerClass]
    rfl

end Autoscaling
end ServingAdmin
