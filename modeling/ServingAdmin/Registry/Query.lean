import ServingAdmin.Registry.Secret

/-!
# Registry queries

Which registry secrets are listed: those of all namespaces or of one, and of that one
those of all service accounts or of one.  An empty name is the same as none.
-/

namespace ServingAdmin
namespace Registry

/-- Which secrets are listed. -/
structure Query where
  ns : Option String
  account : Option String
  deriving DecidableEq

namespace Query

/-- The query for given names.  A service account needs a namespace. -/
def ofNames (ns account : Option String) : Except Failure Query :=
  let ns := ns.filter (fun s => !s.isEmpty)
  let account := account.filter (fun s => !s.isEmpty)
  if ns.isNone && account.isSome then .error (.of .accountWithoutNamespace)
  else .ok ⟨ns, account⟩

/-- Whether secrets of all namespaces are listed. -/
def allNamespaces (q : Query) : Bool := q.ns.isNone

/-- The namespaces to look into, out of those that there are. -/
def namespaces (q : Query) (available : List String) : Except Failure (List String) :=
  match q.ns with
  | none => .ok available
  | some ns => if ns ∈ available then .ok [ns] else .error (.of (.namespaceNotFound ns))

/-- Whether a secret belongs to the service account. -/
def covers (q : Query) (s : Secret) : Bool :=
  match q.account with
  | none => true
  | some account => account = s.account

end Query

end Registry
end ServingAdmin
