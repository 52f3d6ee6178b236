import ServingAdmin.Cluster.Exchange
import ServingAdmin.Registry.Listing

/-!
# Registry commands
-/

namespace ServingAdmin
namespace Registry

open Cluster
open Script

/-- The namespaces of the cluster that a query looks into. -/
def searched (q : Query) : Script (List String) := do
  let available ← Exchange.namespaces.context .namespacesNotSearched
  ofExcept (Failure.context .namespacesNotSearched (q.namespaces available))

/-- Prints the registries of one namespace or of all, and of one service account or of all. -/
def listCommand (ns account : Option String) (noHeaders : Bool) : Script Unit := do
  let q ← ofExcept (Query.ofNames ns account)
  let names ← searched q
  let secrets ← Exchange.secretsOf names
  printListing (listing secrets q noHeaders)

end Registry
end ServingAdmin
