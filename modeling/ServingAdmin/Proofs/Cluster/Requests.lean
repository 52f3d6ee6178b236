import ServingAdmin.Proofs.Cluster.PlainPath

/-!
# The requests of calls

Where the names in its path are plain, a call makes one and the same request.  The text that is to
be deleted may be any, so its request may go to the claim of another name, or to no claim at all.
-/

namespace ServingAdmin
namespace Cluster

namespace Request

/-- The request for the config map of a name. -/
def getMap
    (name : String) :
    Request :=
  ⟨.get, ⟨(Route.configMap name).path, none⟩⟩

/-- The request to replace the config map of a name. -/
def putMap
    (name : String)
    (c : ConfigMap) :
    Request :=
  ⟨.replace c, ⟨(Route.configMap name).path, some []⟩⟩

/-- The request for the namespaces. -/
def getNamespaces : Request :=
  ⟨.get, ⟨Route.namespaces.path, some []⟩⟩

/-- The request for the registry secrets of a namespace. -/
def getSecrets
    (ns : String) :
    Request :=
  ⟨.get, ⟨(Route.secrets ns).path, some ('&' :: Call.selecting Registry.labelSelector)⟩⟩

/-- The request to make a claim. -/
def postClaim
    (claim : Claim) :
    Request :=
  ⟨.create claim, ⟨Route.claims.path, some []⟩⟩

/-- The request to delete the claim of a name. -/
def deleteClaim
    (name : String) :
    Request :=
  ⟨.delete, ⟨(Route.claim name).path, some []⟩⟩

/-- A request that deletes something at the path of a claim, whatever its query. -/
structure DeletesAt
    (r : Request)
    (name : String) :
    Prop where
  action : r.action = .delete
  literal : LiteralSegment name
  path : r.target.path = (Route.claim name).path

theorem deletesAt_deleteClaim
    {name : String}
    (h : LiteralSegment name) :
    (deleteClaim name).DeletesAt name :=
  ⟨rfl, h, rfl⟩

end Request

namespace Call

theorem isQueryChar_of_mem_nil :
    ∀ c ∈ ([] : List Char), Target.isQueryChar c = true := by
  simp

theorem request?_fetch
    {name : String}
    (h : PlainSegment name) :
    (fetch name).request? = some (Request.getMap name) := by
  have hread : Target.read? ((Route.configMap name).path ++ []) =
      some ⟨(Route.configMap name).path, none⟩ := by
    rw [List.append_nil]
    exact Route.read?_path_bare (Route.plain_configMap h)
  exact congrArg (Option.map fun target => Request.mk .get target) hread

theorem request?_replace
    {name : String}
    (h : PlainSegment name)
    (c : ConfigMap) :
    (replace name c).request? = some (Request.putMap name c) :=
  congrArg (Option.map fun target => Request.mk (.replace c) target)
    (Route.read?_path (Route.plain_configMap h) isQueryChar_of_mem_nil)

theorem request?_namespaces :
    namespaces.request? = some Request.getNamespaces := by
  decide

theorem request?_secrets
    {ns : String}
    (h : PlainSegment ns) :
    (secrets ns Registry.labelSelector).request? = some (Request.getSecrets ns) := by
  have hquery : ('&' :: selecting Registry.labelSelector).all Target.isQueryChar = true := by
    decide +kernel
  have hsent : ('&' :: selecting Registry.labelSelector).flatMap Target.sentQueryChar =
      '&' :: selecting Registry.labelSelector := by
    decide +kernel
  have hread := Route.read?_path (Route.plain_secrets h) (List.all_eq_true.mp hquery)
  rw [hsent] at hread
  exact congrArg (Option.map fun target => Request.mk .get target) hread

theorem request?_create
    (claim : Claim) :
    (create claim).request? = some (Request.postClaim claim) := by
  have htarget : Target.read? (Route.claims.path ++ ['?']) =
      some ⟨Route.claims.path, some []⟩ := by
    decide +kernel
  exact congrArg (Option.map fun target => Request.mk (.create claim) target) htarget

theorem request?_delete
    {name : String}
    (h : PlainSegment name) :
    (delete name).request? = some (Request.deleteClaim name) :=
  congrArg (Option.map fun target => Request.mk .delete target)
    (Route.read?_path (Route.plain_claim h) isQueryChar_of_mem_nil)

/-- Of a text with a hash sign only what stands before it is sent. -/
theorem request?_delete_append_hash
    {name : String}
    (h : PlainSegment name)
    (behind : String) :
    (delete (name ++ "#" ++ behind)).request? =
      some ⟨.delete, ⟨(Route.claim name).path, none⟩⟩ := by
  have hpath : (Route.claim (name ++ "#" ++ behind)).path ++ ['?'] =
      (Route.claim name).path ++ '#' :: (behind.toList ++ ['?']) := by
    simp [Route.path, Route.segments]
  have hread := Route.read?_path_hash (Route.plain_claim h) (behind.toList ++ ['?'])
  rw [← hpath] at hread
  exact congrArg (Option.map fun target => Request.mk .delete target) hread

end Call

/-- A text of which the request to delete it goes to the path of a claim, if there is such a
request. -/
def LeadsToClaim
    (text : String) :
    Prop :=
  ∀ r, (Call.delete text).request? = some r → ∃ name, r.DeletesAt name

theorem LeadsToClaim.of_literal
    {text : String}
    (h : LiteralSegment text) :
    LeadsToClaim text := by
  intro r hr
  cases (Call.request?_delete h.plain).symm.trans hr
  exact ⟨text, Request.deletesAt_deleteClaim h⟩

theorem LeadsToClaim.append_hash
    {name : String}
    (h : LiteralSegment name)
    (behind : String) :
    LeadsToClaim (name ++ "#" ++ behind) := by
  intro r hr
  cases (Call.request?_delete_append_hash h.plain behind).symm.trans hr
  exact ⟨name, rfl, h, rfl⟩

/-- A text that stands for itself in the request to delete it, if there is such a request. -/
def NamesItself
    (text : String) :
    Prop :=
  (Call.delete text).request? = none ∨ LiteralSegment text

theorem NamesItself.request?_delete
    {text : String}
    (h : NamesItself text)
    {r : Request}
    (hr : (Call.delete text).request? = some r) :
    LiteralSegment text ∧ r = Request.deleteClaim text := by
  rcases h with hnone | hliteral
  · cases hnone.symm.trans hr
  · exact ⟨hliteral, Option.some.inj (hr.symm.trans (Call.request?_delete hliteral.plain))⟩

end Cluster
end ServingAdmin
