/-!
# Faults of JSON texts

Reading a JSON text as a value of a known shape fails in one of three ways, and the
leftmost failure counts.
-/

namespace ServingAdmin
namespace Json

/-- Why a text could not be read. -/
inductive Fault
  /-- The text breaks the grammar. -/
  | malformed
  /-- The text ends too early. -/
  | truncated
  /-- A value has another shape than the one expected. -/
  | mismatched
  deriving DecidableEq

/-- The message of a fault, placed as it is for a text of no characters. -/
def Fault.message : Fault → String
  | malformed => "expected value at line 1 column 1"
  | truncated => "EOF while parsing a value at line 1 column 0"
  | mismatched => "invalid type at line 1 column 0"

end Json
end ServingAdmin
