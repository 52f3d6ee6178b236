import ServingAdmin.Problem

/-!
# Autoscaling fields

The keys of the autoscaler config map that this library can update.  Each field has a
kind, which says how a value is checked and in which form it is stored, and the value
that holds when the key is absent.

* Durations are stored as a number of seconds.
* Booleans are stored as `true` or `false`.
* Decimals and all other values are stored as they were given.
-/

namespace ServingAdmin
namespace Autoscaling

/-- How a value is checked and stored. -/
inductive FieldKind
  /-- One of the words for true and false. -/
  | boolean
  /-- A duration of whole seconds from `windowMin` to `windowMax`. -/
  | window
  /-- A duration of at least `windowMin`. -/
  | gracePeriod
  /-- A duration that is not negative. -/
  | retentionPeriod
  /-- A decimal greater than one. -/
  | rate
  /-- A decimal that is not negative, or minus one for no limit. -/
  | burstCapacity
  /-- A decimal of at least one. -/
  | activatorCapacity
  /-- Any text. -/
  | verbatim
  deriving DecidableEq

/-- A key of the autoscaler config map. -/
structure Field where
  name : String
  kind : FieldKind
  fallback : String
  help : String
  deriving DecidableEq

/-- The key that the two scale-to-zero flags set. -/
def scaleToZeroKey : String := "enable-scale-to-zero"

/-- Every field that can be updated. -/
def fields : List Field := [
  ⟨scaleToZeroKey, .boolean, "true", "Enable scale-to-zero if set."⟩,
  ⟨"requests-per-second-target-default", .verbatim, "200",
    "the default target value for requests per second"⟩,
  ⟨"container-concurrency-target-default", .verbatim, "100",
    "the default value of container concurrency target"⟩,
  ⟨"container-concurrency-target-percentage", .verbatim, "70",
    "percentage of the specified target should actually be targeted by the Autoscaler"⟩,
  ⟨"stable-window", .window, "60s",
    "when operating in a stable mode, the autoscaler operates on the average concurrency over the " ++
      "x seconds of stable window"⟩,
  ⟨"panic-window-percentage", .verbatim, "10",
    "The panic window is defined as a percentage of the stable window"⟩,
  ⟨"panic-threshold-percentage", .verbatim, "200",
    "This threshold defines when the autoscaler will move from stable mode into panic mode"⟩,
  ⟨"max-scale-up-rate", .rate, "1000", "Maximum ratio of desired vs. observed pods"⟩,
  ⟨"max-scale-down-rate", .rate, "2", "Maximum ratio of observed vs. desired pods"⟩,
  ⟨"scale-to-zero-grace-period", .gracePeriod, "30s",
    "the maximum seconds of time that the last pod will remain active after the Autoscaler has " ++
      "decided to scale pods to zero"⟩,
  ⟨"scale-to-zero-pod-retention-period", .retentionPeriod, "0s",
    "the minimum seconds of time that the last pod will remain active after the Autoscaler has " ++
      "decided to scale pods to zero"⟩,
  ⟨"target-burst-capacity", .burstCapacity, "200",
    "the desired burst capacity for the revision"⟩,
  ⟨"pod-autoscaler-class", .verbatim, "kpa.autoscaling.knative.dev",
    "the config of Knative autoscaling to work with either the default KPA or a CPU based metric, " ++
      "i.e. Horizontal Pod Autoscaler (HPA)"⟩,
  ⟨"activator-capacity", .activatorCapacity, "100",
    "number of the concurrent requests an activator task can accept"⟩]

/-- The words for true and false. -/
def readBoolean (raw : String) : Option Bool :=
  if raw ∈ ["1", "t", "T", "true", "TRUE", "True"] then some true
  else if raw ∈ ["0", "f", "F", "false", "FALSE", "False"] then some false
  else none

/-- The form in which a boolean is stored. -/
def booleanText (b : Bool) : String := if b then "true" else "false"

/-- Reads a duration. -/
def readDuration (raw : String) : Except Failure Duration :=
  (Duration.read raw).mapError fun fault => .of (.badDuration fault raw)

namespace Field

/-- The field of a name. -/
def named? (name : String) : Option Field := fields.find? (fun f => f.name = name)

/-- Whether a command gives the field through an option with a value. -/
def takesValue (f : Field) : Bool := f.kind ≠ .boolean

/-- The failure to accept a value. -/
def reject {α : Type} (f : Field) (reason : Rejection) : Except Failure α :=
  .error (.of (.rejectedField f.name reason))

/-- Reads a finite decimal as its count of units. -/
def readUnits (f : Field) (raw : String) : Except Failure Int :=
  match Binary64.read raw with
  | .error fault =>
      .error (.because (.rejectedField f.name (.notDecimal raw)) (.of (.badDecimal fault)))
  | .ok (.finite negative units) => .ok (Binary64.signedUnits negative units)
  | .ok _ => f.reject (.notDecimal raw)

/-- Whether a burst capacity is acceptable: it is not negative, or no further from minus one than
one is from the next larger number. -/
def isCapacity (units : Int) : Prop :=
  0 ≤ units ∨ (units + Binary64.unitsPerOne).natAbs ≤ Binary64.spacing Binary64.unitsPerOne

instance (units : Int) : Decidable (isCapacity units) := inferInstanceAs (Decidable (_ ∨ _))

/-- Checks a value and gives the form in which it is stored. -/
def accept (f : Field) (raw : String) : Except Failure String :=
  match f.kind with
  | .boolean =>
      match readBoolean raw with
      | some b => .ok (booleanText b)
      | none => f.reject (.notBoolean raw)
  | .window => do
      let d ← readDuration raw
      if d < windowMin ∨ windowMax < d then f.reject (.outsideWindow d)
      else if d.isWholeSeconds then .ok d.secondsText
      else f.reject (.notWholeSeconds d)
  | .gracePeriod => do
      let d ← readDuration raw
      if d < windowMin then f.reject (.tooShort d) else .ok d.secondsText
  | .retentionPeriod => do
      let d ← readDuration raw
      if d.isNegative then f.reject (.negative d) else .ok d.secondsText
  | .rate => do
      let units ← f.readUnits raw
      if units ≤ Binary64.unitsPerOne then f.reject (.notAboveOne raw) else .ok raw
  | .burstCapacity => do
      let units ← f.readUnits raw
      if isCapacity units then .ok raw else f.reject (.badCapacity raw)
  | .activatorCapacity => do
      let units ← f.readUnits raw
      if units < Binary64.unitsPerOne then f.reject (.belowOne raw) else .ok raw
  | .verbatim => .ok raw

end Field

/-- Checks a value for the field of a name and gives the form in which it is stored. -/
def accept (name raw : String) : Except Failure String :=
  match Field.named? name with
  | some f => f.accept raw
  | none => .error (.of (.unknownField name))

end Autoscaling
end ServingAdmin
