import ServingAdmin.Cluster.Exchange
import ServingAdmin.Domain.Listing

/-!
# Domain commands
-/

namespace ServingAdmin
namespace Domain

open Cluster
open Script

/-- Prints the custom domains. -/
def listCommand (noHeaders : Bool) : Script Unit := do
  let c ← (Exchange.fetch Exchange.domainMap).context
    (.configMapNotFetched Exchange.domainMap servingNamespace)
  printListing (listing c.settings noHeaders)

end Domain
end ServingAdmin
