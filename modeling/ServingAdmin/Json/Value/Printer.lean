import ServingAdmin.Json.Value.Basic
import ServingAdmin.Json.Writer

/-!
# Writing JSON values

The compact form of a value.
-/

namespace ServingAdmin
namespace Json
namespace Value

mutual
/-- The form of a value. -/
def write : Value → List Char
  | null => ['n', 'u', 'l', 'l']
  | boolean b => Writer.boolean b
  | whole n => Writer.whole n
  | real x => Writer.real x
  | text s => Writer.string s
  | array items => Writer.array (writeItems items)
  | object members => Writer.object (writeMembers members)

/-- The forms of items. -/
def writeItems : List Value → List (List Char)
  | [] => []
  | v :: items => v.write :: writeItems items

/-- The names of members and the forms of their values. -/
def writeMembers : List (String × Value) → List (String × List Char)
  | [] => []
  | (name, v) :: members => (name, v.write) :: writeMembers members
end

end Value
end Json
end ServingAdmin
