import ServingAdmin.Autoscaling.Field
import ServingAdmin.Binary64.Numeral
import ServingAdmin.KeyMap

/-!
# Autoscaling settings

The settings that the data of the autoscaler config map stands for.  A key that is
absent has the fallback of its field, and a value is read without the blanks around it.
The first value, in the order in which the settings are read, that cannot be read decides
the failure.

`Settings.rows` lists the settings by name in the form in which they are shown: decimals
with one place, durations in brief.
-/

namespace ServingAdmin
namespace Autoscaling

/-- The values of all settings. -/
structure Settings where
  scaleToZero : Bool
  concurrencyPercentage : Binary64
  concurrencyTarget : Binary64
  requestsPerSecond : Binary64
  maxScaleUpRate : Binary64
  maxScaleDownRate : Binary64
  burstCapacity : Binary64
  panicWindowPercentage : Binary64
  panicThresholdPercentage : Binary64
  stableWindow : Duration
  gracePeriod : Duration
  retentionPeriod : Duration
  activatorCapacity : Binary64
  autoscalerClass : String
  deriving DecidableEq

/-- The value that holds when a key is absent. -/
def fallback (key : String) : String := ((Field.named? key).map Field.fallback).getD ""

/-- The value that holds for a key. -/
def effective (data : KeyMap String) (key : String) : String :=
  match data.get? key with
  | some raw => Text.trimmed raw
  | none => fallback key

/-- Reads a boolean setting. -/
def readSwitch (data : KeyMap String) (key : String) : Except Failure Bool :=
  let raw := effective data key
  match readBoolean raw with
  | some b => .ok b
  | none => .error (.of (.unreadableSetting key raw))

/-- Reads a decimal setting. -/
def readDecimal (data : KeyMap String) (key : String) : Except Failure Binary64 :=
  let raw := effective data key
  Failure.context (.unreadableSetting key raw)
    ((Binary64.read raw).mapError fun fault => .of (.badDecimal fault))

/-- Reads a duration setting. -/
def readPeriod (data : KeyMap String) (key : String) : Except Failure Duration :=
  let raw := effective data key
  Failure.context (.unreadableSetting key raw) (readDuration raw)

namespace Settings

/-- Reads every setting. -/
def readAll (data : KeyMap String) : Except Failure Settings := do
  let scaleToZero ← readSwitch data scaleToZeroKey
  let concurrencyPercentage ← readDecimal data "container-concurrency-target-percentage"
  let concurrencyTarget ← readDecimal data "container-concurrency-target-default"
  let requestsPerSecond ← readDecimal data "requests-per-second-target-default"
  let maxScaleUpRate ← readDecimal data "max-scale-up-rate"
  let maxScaleDownRate ← readDecimal data "max-scale-down-rate"
  let burstCapacity ← readDecimal data "target-burst-capacity"
  let panicWindowPercentage ← readDecimal data "panic-window-percentage"
  let panicThresholdPercentage ← readDecimal data "panic-threshold-percentage"
  let stableWindow ← readPeriod data "stable-window"
  let gracePeriod ← readPeriod data "scale-to-zero-grace-period"
  let retentionPeriod ← readPeriod data "scale-to-zero-pod-retention-period"
  let activatorCapacity ← readDecimal data "activator-capacity"
  return {
    scaleToZero, concurrencyPercentage, concurrencyTarget, requestsPerSecond, maxScaleUpRate,
    maxScaleDownRate, burstCapacity, panicWindowPercentage, panicThresholdPercentage,
    stableWindow, gracePeriod, retentionPeriod, activatorCapacity,
    autoscalerClass := effective data "pod-autoscaler-class" }

/-- Reads the settings of a config map's data. -/
def read (data : KeyMap String) : Except Failure Settings :=
  Failure.context .unreadableSettings (readAll data)

/-- The settings by increasing name, in the form in which they are shown. -/
def rows (s : Settings) : List (String × String) := [
  ("activator-capacity", s.activatorCapacity.fixed 1),
  ("container-concurrency-target-default", s.concurrencyTarget.fixed 1),
  ("enable-scale-to-zero", booleanText s.scaleToZero),
  ("max-scale-down-rate", s.maxScaleDownRate.fixed 1),
  ("max-scale-up-rate", s.maxScaleUpRate.fixed 1),
  ("panic-threshold-percentage", s.panicThresholdPercentage.fixed 1),
  ("panic-window-percentage", s.panicWindowPercentage.fixed 1),
  ("pod-autoscaler-class", s.autoscalerClass),
  ("requests-per-second-target-default", s.requestsPerSecond.fixed 1),
  ("scale-to-zero-grace-period", s.gracePeriod.brief),
  ("scale-to-zero-pod-retention-period", s.retentionPeriod.brief),
  ("stable-window", s.stableWindow.brief),
  ("target-burst-capacity", s.burstCapacity.fixed 1)]

end Settings

end Autoscaling
end ServingAdmin
