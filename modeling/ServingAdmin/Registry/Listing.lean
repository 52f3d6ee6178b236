import ServingAdmin.Registry.Query
import ServingAdmin.Table.Basic

/-!
# The list of registries

One row for each server in each secret that a query covers, by namespace, by name of the
secret and by server.  All secrets have to be decodable, also those that the query does
not cover.
-/

namespace ServingAdmin
namespace Registry

/-- What is listed of the credentials for a server. -/
structure Row where
  ns : String
  account : String
  secret : String
  username : String
  server : String
  email : String
  deriving DecidableEq

/-- The rows of a secret, by server. -/
def Secret.rows (s : Secret) : List Row :=
  s.config.auths.entries.map fun e => ⟨s.ns, s.account, s.name, e.2.username, e.1, e.2.email⟩

/-- Reduces all objects, up to the first that cannot be decoded. -/
def decodeAll : List Cluster.Secret → Except Failure (List Secret)
  | [] => .ok []
  | s :: rest =>
      match Secret.ofObject s with
      | .error failure => .error failure
      | .ok first => (decodeAll rest).map (first :: ·)

/-- The rows that a query selects. -/
def rows (secrets : List Cluster.Secret) (q : Query) : Except Failure (List Row) :=
  (decodeAll secrets).map fun decoded =>
    ((decoded.filter q.covers).mergeSort Secret.isBefore).flatMap Secret.rows

/-- The cells of a row; the namespace is shown where there can be several. -/
def Row.cells (withNamespace : Bool) (r : Row) : List String :=
  (if withNamespace then [r.ns] else []) ++ [r.account, r.secret, r.username, r.server, r.email]

/-- The table of the rows that a query selects. -/
def listing (secrets : List Cluster.Secret) (q : Query) (noHeaders : Bool) :
    Except Failure Table :=
  (rows secrets q).map fun rs =>
    let headers := (if q.allNamespaces then ["Namespace"] else []) ++
      ["ServiceAccount", "Secret", "UserName", "Server", "Email"]
    { Table.ofHeaders headers with
      rows := rs.map (Row.cells q.allNamespaces), noHeaders := noHeaders }

end Registry
end ServingAdmin
