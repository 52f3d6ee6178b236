import ServingAdmin.Claim.Listing
import ServingAdmin.Claim.Name
import ServingAdmin.Cluster.Exchange

/-!
# Claim commands

Making, deleting and listing claims of domain names.  A claim is checked before it is
sent; a name that is to be deleted is not, as the cluster knows which names there are.
-/

namespace ServingAdmin
namespace Claim

open Cluster
open Script

/-- What is printed of a change. -/
def notice (name change : String) : String :=
  "Cluster Domain Claim '" ++ name ++ "' " ++ change ++ ".\n"

/-- Claims a name for a namespace. -/
def createCommand (name ns : String) : Script Unit := do
  ofExcept (check name ns)
  Exchange.create ⟨name, ns⟩
  print (notice name "created") (done ())

/-- Deletes the claim of a name. -/
def deleteCommand (name : String) : Script Unit := do
  Exchange.delete name
  print (notice name "deleted") (done ())

/-- Prints the claims, if all of them have a name. -/
def listCommand (noHeaders : Bool) : Script Unit := do
  let claims ← Exchange.claims
  let table ← ofOption (listing claims noHeaders)
  printListing (.ok table)

end Claim
end ServingAdmin
