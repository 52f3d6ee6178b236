import ServingAdmin.Cluster.Object
import ServingAdmin.Table.Basic

/-!
# The list of domain claims

Claims are listed in the order in which the cluster gives them.  Every claim has to have a
name: with one that has none there are no rows, and nothing is printed.
-/

namespace ServingAdmin
namespace Claim

/-- The claimed domains and the namespaces that claim them, if all claims have a name. -/
def rows (claims : List Cluster.ListedClaim) : Option (List (String × String)) :=
  claims.mapM fun c => c.name.map fun name => (name, c.ns)

/-- The table of the claims, if all of them have a name. -/
def listing (claims : List Cluster.ListedClaim) (noHeaders : Bool) : Option Table :=
  (rows claims).map fun rs =>
    { Table.ofHeaders ["Domain Name", "Namespace"] with
      rows := rs.map fun r => [r.1, r.2], noHeaders := noHeaders }

end Claim
end ServingAdmin
