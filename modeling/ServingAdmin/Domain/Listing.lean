import ServingAdmin.Domain.Selector
import ServingAdmin.KeyMap
import ServingAdmin.Problem
import ServingAdmin.Table.Basic

/-!
# The list of custom domains

The domains in the data of the domain config map, by name, each with its selector on one
line.  One key holds documentation and is no domain.
-/

namespace ServingAdmin
namespace Domain

/-- The key that holds documentation. -/
def exampleKey : String := "_example"

/-- The domains and their selectors. -/
def rows (data : KeyMap String) : List (String × String) :=
  (data.entries.filter (·.1 ≠ exampleKey)).map fun e => (e.1, Selector.summary e.2)

/-- The table of the domains. -/
def listing (data : KeyMap String) (noHeaders : Bool) : Except Failure Table :=
  .ok { Table.ofHeaders ["Custom-Domain", "Selector"] with
    rows := (rows data).map fun r => [r.1, r.2], noHeaders := noHeaders }

end Domain
end ServingAdmin
