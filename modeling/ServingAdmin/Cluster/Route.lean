import ServingAdmin.Cluster.Encoding
import ServingAdmin.Text.Split

/-!
# Routes

The objects and collections of the cluster that have a path of their own.  A path is a
sequence of segments with a slash before each, and `Route.ofPath?` finds the route of a
path whose segments have no slashes in them.
-/

namespace ServingAdmin
namespace Cluster

/-- Something in the cluster that has a path. -/
inductive Route
  /-- A config map in the namespace of Knative Serving. -/
  | configMap (name : String)
  | namespaces
  /-- The secrets of a namespace. -/
  | secrets (ns : String)
  | claims
  | claim (name : String)
  deriving DecidableEq

namespace Route

/-- The segments of the path of a route. -/
def segments : Route → List String
  | configMap name => ["api", "v1", "namespaces", servingNamespace, "configmaps", name]
  | namespaces => ["api", "v1", "namespaces"]
  | secrets ns => ["api", "v1", "namespaces", ns, "secrets"]
  | claims => ["apis", Claim.group, Claim.version, Claim.plural]
  | claim name => ["apis", Claim.group, Claim.version, Claim.plural, name]

/-- The path of a route. -/
def path (r : Route) : List Char := r.segments.flatMap fun segment => '/' :: segment.toList

/-- The route with given segments. -/
def ofSegments? : List String → Option Route
  | [a, b, c] => if [a, b, c] = segments .namespaces then some .namespaces else none
  | [a, b, c, d] => if [a, b, c, d] = segments .claims then some .claims else none
  | [a, b, c, d, e] =>
      if [a, b, c, d, e] = segments (.claim e) then some (.claim e)
      else if [a, b, c, d, e] = segments (.secrets d) then some (.secrets d)
      else none
  | [a, b, c, d, e, f] =>
      if [a, b, c, d, e, f] = segments (.configMap f) then some (.configMap f) else none
  | _ => none

/-- The route with a given path. -/
def ofPath? (path : List Char) : Option Route :=
  match Text.splitAt '/' path with
  | [] :: pieces => ofSegments? (pieces.map String.ofList)
  | _ => none

end Route

end Cluster
end ServingAdmin
