import ServingAdmin.Autoscaling.Listing
import ServingAdmin.Claim.Listing
import ServingAdmin.Domain.Listing
import ServingAdmin.Registry.Listing
import ServingAdmin.Script
import ServingAdmin.Table.Sink

/-!
# Printing lists

There are four lists: of settings, of domains, of claims and of registries.  A list is
printed into a sink once all its rows are there.  If they cannot be made the printing
fails, or ends without a word where a claim has no name.
-/

namespace ServingAdmin

/-- What a list is made of. -/
inductive Listed
  | settings (data : KeyMap String)
  | domains (data : KeyMap String)
  | claims (all : List Cluster.ListedClaim)
  | registries (secrets : List Cluster.Secret) (q : Registry.Query)

namespace Listed

/-- The table of a list or why there is none, unless the tool ends without a word. -/
def table (noHeaders : Bool) : Listed → Option (Except Failure Table)
  | settings data => some (Autoscaling.listing data noHeaders)
  | domains data => some (Domain.listing data noHeaders)
  | claims all => (Claim.listing all noHeaders).map .ok
  | registries secrets q => some (Registry.listing secrets q noHeaders)

/-- Prints a list into a sink, and tells how that ended. -/
def printTo (l : Listed) (noHeaders : Bool) (s : Sink) : Sink × Script.Outcome Unit :=
  match l.table noHeaders with
  | none => (s, .aborted)
  | some listing =>
      match Table.printTo listing s with
      | (s', none) => (s', .done ())
      | (s', some failure) => (s', .failed failure)

end Listed
end ServingAdmin
