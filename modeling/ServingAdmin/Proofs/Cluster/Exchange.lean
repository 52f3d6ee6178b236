import ServingAdmin.Cluster.Exchange
import ServingAdmin.Proofs.Cluster.Interface
import ServingAdmin.Proofs.Script.Safety

/-!
# Exchanges with a cluster that keeps its promises

What the exchanges of `Exchange` come to when the server keeps the promises of
`Interface`.  Whatever is only got leaves the state alone, and a change is all or nothing.
A config map is got under the name under which it is held, and replaced under the name
that it bears.
-/

namespace ServingAdmin
namespace Cluster

open Script

variable {σ α : Type}
variable {server : Server σ} {view : View σ}

/-- A config map is replaced under the name that it bears. -/
theorem effect_replace_of_name
    {name : String}
    {c : ConfigMap}
    (hc : c.name? = some name)
    (s : σ) :
    effect server (Exchange.replace c) s = effect server (call (Call.replace name c)) s := by
  rw [Exchange.replace, hc]
  rfl

/-- An exchange without a value ends well exactly if the response is what is expected. -/
theorem outcome_call_eq_done_iff
    {c : Call Unit}
    {r : Request}
    (hr : c.request? = some r)
    (s : σ) :
    (effect server (call c) s).outcome = .done () ↔
      c.expected.IsMet (server.answer s r).1 := by
  rw [effect_call hr]
  cases htake : c.expected.take (server.answer s r).1 with
  | ok a => simp [Expectation.IsMet, htake]
  | error fault => simp [Expectation.IsMet, htake]

/-- An exchange is all or nothing if its request changes nothing unless the response is what is
expected. -/
theorem allOrNothing_call
    {c : Call α}
    {r : Request}
    (hr : c.request? = some r)
    (hkept : ∀ {s}, ¬ c.expected.IsMet (server.answer s r).1 → (server.answer s r).2 = s) :
    AllOrNothing server (call c) := by
  intro s hs
  rw [effect_call hr] at hs ⊢
  refine hkept fun hmet => ?_
  obtain ⟨a, ha⟩ := hmet
  exact hs a (by simp [ha])

namespace Server.KeepsObjects

variable (h : server.KeepsObjects view)
include h

/-- An exchange that only gets something reads. -/
theorem reads_call
    {c : Call α}
    (hc : c.action = .get) :
    Reads server (call c) := by
  intro s
  cases hr : c.request? with
  | none => rw [effect_call_of_none hr]
  | some r =>
      obtain ⟨target, _, rfl⟩ := Option.map_eq_some_iff.mp hr
      rw [effect_call hr]
      exact h.untouched hc

theorem reads_fetch
    (name : String) :
    Reads server (Exchange.fetch name) :=
  Reads.report (h.reads_call rfl)

theorem reads_installation :
    Reads server Exchange.installation :=
  Reads.bind (h.reads_fetch _) fun _ =>
    Reads.bind (Reads.reportAll _) fun _ => Reads.report (Reads.done _)

theorem reads_namespaces :
    Reads server Exchange.namespaces :=
  Reads.bind (h.reads_call rfl) fun _ => Reads.ofOption _

theorem reads_secretsOf
    (names : List String) :
    Reads server (Exchange.secretsOf names) := by
  induction names with
  | nil => exact Reads.done _
  | cons name rest ih =>
      exact Reads.bind (Reads.report (h.reads_call rfl)) fun _ =>
        Reads.bind ih fun _ => Reads.done _

theorem reads_claims :
    Reads server Exchange.claims :=
  h.reads_call rfl

theorem allOrNothing_replace
    {name : String}
    (hname : LiteralSegment name)
    {c : ConfigMap}
    (hc : c.name? = some name) :
    AllOrNothing server (Exchange.replace c) := by
  rw [Exchange.replace, hc]
  exact AllOrNothing.report
    (allOrNothing_call (Call.request?_replace hname.plain c) fun hmet => h.kept hname hmet)

/-- What is fetched is held under the name for which it was asked. -/
theorem configMap?_of_fetch
    {name : String}
    (hname : LiteralSegment name)
    {s : σ}
    {c : ConfigMap}
    (hc : (effect server (Exchange.fetch name) s).outcome = .done c) :
    view.configMap? s name = some c := by
  rw [Exchange.fetch, effect_report, effect_call (Call.request?_fetch hname.plain)] at hc
  refine h.held hname ?_
  cases htake : Expectation.configMap.take (server.answer s (Request.getMap name)).1 with
  | ok d => simpa [Call.fetch, htake] using hc
  | error fault => simp [Call.fetch, htake] at hc

end Server.KeepsObjects

namespace Server.ServesObjects

variable (h : server.ServesObjects view)
include h

/-- What is held is fetched. -/
theorem effect_fetch
    {name : String}
    (hname : LiteralSegment name)
    {s : σ}
    {c : ConfigMap}
    (hc : view.configMap? s name = some c) :
    effect server (Exchange.fetch name) s = ⟨.done c, [Request.getMap name], s⟩ := by
  rw [Exchange.fetch, effect_report, effect_call (Call.request?_fetch hname.plain),
    h.untouched rfl]
  simp [Call.fetch, h.given hname hc]

/-- What is not held cannot be fetched. -/
theorem effect_fetch_of_none
    {name : String}
    (hname : LiteralSegment name)
    {s : σ}
    (hc : view.configMap? s name = none) :
    ∃ failure,
      effect server (Exchange.fetch name) s = ⟨.failed failure, [Request.getMap name], s⟩ := by
  rw [Exchange.fetch, effect_report, effect_call (Call.request?_fetch hname.plain),
    h.untouched rfl]
  cases htake : Expectation.configMap.take (server.answer s (Request.getMap name)).1 with
  | ok c =>
      have hheld := h.held hname htake
      rw [hc] at hheld
      cases hheld
  | error fault => exact ⟨.of (.failedExchange fault), by simp [Call.fetch, htake]⟩

/-- A config map that is held can be replaced by one that carries its name and version. -/
theorem effect_replace
    {name : String}
    (hname : LiteralSegment name)
    {s : σ}
    {c old : ConfigMap}
    (hold : view.configMap? s name = some old)
    (hc : c.name? = some name)
    (hversion : c.version? = old.version?) :
    ∃ answered,
      effect server (Exchange.replace c) s =
        ⟨.done answered, [Request.putMap name c],
          (server.answer s (Request.putMap name c)).2⟩ := by
  obtain ⟨answered, htake⟩ := h.accepted hname hc hold hversion
  refine ⟨answered, ?_⟩
  rw [effect_replace_of_name hc, effect_call (Call.request?_replace hname.plain c)]
  simp [Call.replace, htake]

end Server.ServesObjects

theorem Server.MakesClaims.allOrNothing_create
    (h : server.MakesClaims view)
    (claim : Claim) :
    AllOrNothing server (Exchange.create claim) :=
  AllOrNothing.report (allOrNothing_call (Call.request?_create claim) fun hmet => h.notMade hmet)

/-- A deletion is all or nothing if its request, should there be one, changes nothing unless the
removal is confirmed. -/
theorem allOrNothing_delete
    {text : String}
    (hkept :
      ∀ r, (Call.delete text).request? = some r →
        ∀ {s}, ¬ Expectation.removal.IsMet (server.answer s r).1 → (server.answer s r).2 = s) :
    AllOrNothing server (Exchange.delete text) := by
  refine AllOrNothing.report ?_
  cases hr : (Call.delete text).request? with
  | none =>
      intro s _
      rw [effect_call_of_none hr]
  | some r => exact allOrNothing_call hr (hkept r hr)

/-- The deletion of a text that leads to a claim is all or nothing. -/
theorem Server.ConfinesDeletions.allOrNothing_delete
    (h : server.ConfinesDeletions view)
    {text : String}
    (htext : LeadsToClaim text) :
    AllOrNothing server (Exchange.delete text) := by
  refine Cluster.allOrNothing_delete fun r hr _ hmet => ?_
  obtain ⟨name, hdeletes⟩ := htext r hr
  exact h.notDeleted hdeletes hmet

end Cluster
end ServingAdmin
