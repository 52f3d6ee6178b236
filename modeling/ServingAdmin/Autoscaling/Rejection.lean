import ServingAdmin.Duration.Printer

/-!
# Rejected setting values

The reasons for which a value is not stored under a setting, and their messages.
-/

namespace ServingAdmin
namespace Autoscaling

/-- The shortest window that is accepted. -/
def windowMin : Duration := ⟨6_000_000_000, by decide⟩

/-- The longest window that is accepted. -/
def windowMax : Duration := ⟨3_600_000_000_000, by decide⟩

/-- Why a value is not stored. -/
inductive Rejection
  | notBoolean (raw : String)
  | notDecimal (raw : String)
  | outsideWindow (d : Duration)
  | notWholeSeconds (d : Duration)
  | tooShort (d : Duration)
  | negative (d : Duration)
  | notAboveOne (raw : String)
  | belowOne (raw : String)
  | badCapacity (raw : String)
  deriving DecidableEq

/-- The message for a setting of a given name. -/
def Rejection.message (field : String) : Rejection → String
  | notBoolean raw => field ++ " = " ++ raw ++ ", must be true or false"
  | notDecimal raw => "failed to parse " ++ field ++ " value " ++ raw
  | outsideWindow d =>
      field ++ " = " ++ d.text ++ ", must be in [" ++ windowMin.text ++ "; " ++
        windowMax.text ++ "] range"
  | notWholeSeconds d =>
      field ++ " = " ++ d.text ++ ", must be specified with at most second precision"
  | tooShort d => field ++ " must be at least " ++ windowMin.text ++ ", got " ++ d.text
  | negative d => field ++ " cannot be negative, was: " ++ d.text
  | notAboveOne raw => field ++ " = " ++ raw ++ ", must be greater than 1.0"
  | belowOne raw => field ++ " = " ++ raw ++ ", must be at least 1"
  | badCapacity raw =>
      field ++ " must be either non-negative or -1 (for unlimited), got " ++ raw

end Autoscaling
end ServingAdmin
