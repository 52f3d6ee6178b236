import ServingAdmin.Cluster.Request
import ServingAdmin.Cluster.Response
import ServingAdmin.Text.FormEncoded

/-!
# Calls

The exchanges that commands make with the cluster: what is requested, and what is
expected of the answer.
-/

namespace ServingAdmin
namespace Cluster

/-- An exchange with the cluster.  The query is written out behind the path of the route. -/
structure Call (α : Type) where
  action : Action
  route : Route
  query : List Char
  expected : Expectation α

namespace Call

/-- Fetches a config map of Knative Serving. -/
def fetch (name : String) : Call ConfigMap :=
  ⟨.get, .configMap name, [], Expectation.configMap⟩

/-- Replaces a config map of Knative Serving. -/
def replace (name : String) (c : ConfigMap) : Call ConfigMap :=
  ⟨.replace c, .configMap name, ['?'], Expectation.configMap⟩

/-- Lists the namespaces. -/
def namespaces : Call (List (Option String)) :=
  ⟨.get, .namespaces, ['?'], Expectation.namespaces⟩

/-- The part of a query that narrows a list to the objects with given labels. -/
def selecting (labels : String) : List Char := "labelSelector=".toList ++ Text.formEncoded labels

/-- Lists the secrets of a namespace that have given labels. -/
def secrets (ns labels : String) : Call (List Secret) :=
  ⟨.get, .secrets ns, ['?', '&'] ++ selecting labels, Expectation.secrets⟩

/-- Lists the claims. -/
def claims : Call (List ListedClaim) :=
  ⟨.get, .claims, ['?'], Expectation.claims⟩

/-- Makes a claim. -/
def create (claim : Claim) : Call Unit :=
  ⟨.create claim, .claims, ['?'], Expectation.claim⟩

/-- Deletes a claim. -/
def delete (name : String) : Call Unit :=
  ⟨.delete, .claim name, ['?'], Expectation.removal⟩

/-- The request of a call, if its target can be written. -/
def request? {α : Type} (c : Call α) : Option Request :=
  (Target.read? (c.route.path ++ c.query)).map fun target => ⟨c.action, target⟩

end Call

end Cluster
end ServingAdmin
