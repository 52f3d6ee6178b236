import ServingAdmin.Autoscaling.Command
import ServingAdmin.Proofs.Autoscaling.Override
import ServingAdmin.Proofs.Cluster.Exchange
import ServingAdmin.Proofs.Cluster.Versioned

/-!
# The effect of an update

What the command that updates the settings does to a cluster, part by part: an update that
is not accepted requests nothing, an installation that cannot be edited is only looked at,
and accepted changes end in at most one replacement, by the config map that was fetched
with the changes made to its data.
-/

namespace ServingAdmin
namespace Autoscaling

open Cluster
open Script

variable {σ α : Type}
variable {server : Server σ} {view : View σ}

theorem literal_settingsMap :
    LiteralSegment settingsMap :=
  .of_dnsLabel (by decide) (by decide)

theorem literal_domainMap :
    LiteralSegment Exchange.domainMap :=
  .of_dnsLabel (by decide) (by decide)

/-- The end of an update: what was fetched is written with the changes made, if they alter it. -/
def Changes.finish
    (changes : Changes)
    (c : ConfigMap) :
    Script Unit := do
  changes.write c
  print "Updated Knative autoscaling config\n" (done ())

/-- What an update does with changes that have been accepted. -/
def Changes.carryOut
    (changes : Changes) :
    Script Unit := do
  let installation ← Exchange.installation
  ofExcept installation.ensureEditable
  let c ← fetchSettings
  changes.finish c

@[simp] theorem Changes.name?_applyToMap
    (changes : Changes)
    (c : ConfigMap) :
    (changes.applyToMap c).name? = c.name? := by
  rfl

@[simp] theorem Changes.version?_applyToMap
    (changes : Changes)
    (c : ConfigMap) :
    (changes.applyToMap c).version? = c.version? := by
  rfl

@[simp] theorem Changes.settings_applyToMap
    (changes : Changes)
    (c : ConfigMap) :
    (changes.applyToMap c).settings = changes.applyTo c.settings := by
  rfl

theorem updateCommand_eq
    (u : Update) :
    updateCommand u = u.examine >>= fun _ => u.examine >>= Changes.carryOut := by
  rfl

/-- To examine an update is to check it. -/
theorem effect_examine
    (u : Update)
    (s : σ) :
    effect server u.examine s = effect server (ofExcept u.check) s := by
  rw [Update.examine, effect_bind, effect_reportAll]
  rfl

theorem effect_updateCommand_of_ok
    {u : Update}
    {changes : Changes}
    (hu : u.check = .ok changes)
    (s : σ) :
    effect server (updateCommand u) s = effect server changes.carryOut s := by
  simp [updateCommand_eq, effect_bind, effect_examine, hu, Effect.andThen]

theorem effect_updateCommand_of_error
    {u : Update}
    {failure : Failure}
    (hu : u.check = .error failure)
    (s : σ) :
    effect server (updateCommand u) s = ⟨.failed failure, [], s⟩ := by
  simp [updateCommand_eq, effect_bind, effect_examine, hu, Effect.andThen]

/-- An owner that stands for an operator: an object of the operator's group of kind
`KnativeServing`. -/
def Operates
    (o : Owner) :
    Prop :=
  "operator.knative.dev".toList <+: o.apiVersion.toList ∧ o.kind = "KnativeServing"

theorem isOperator_iff
    (o : Owner) :
    Installation.isOperator o = true ↔ Operates o := by
  simp [Installation.isOperator, Operates]

/-- An installation can be edited if no owner, at any place of the list, is an operator. -/
theorem ensureEditable_ofConfigMap_of_none
    {c : ConfigMap}
    (h : ∀ o ∈ c.ownerList, ¬ Operates o) :
    (Installation.ofConfigMap c).ensureEditable = .ok () := by
  have hnone : Installation.operatorOf c = none := by
    refine List.find?_eq_none.mpr fun o ho => ?_
    rw [isOperator_iff]
    exact h o ho
  rw [Installation.ofConfigMap, hnone]
  rfl

theorem ensureEditable_ofConfigMap_of_exists
    {c : ConfigMap}
    {o : Owner}
    (ho : o ∈ c.ownerList)
    (h : Operates o) :
    (Installation.ofConfigMap c).ensureEditable = .error (.of .operatorManaged) := by
  have hsome : (Installation.operatorOf c).isSome = true :=
    List.find?_isSome.mpr ⟨o, ho, (isOperator_iff o).mpr h⟩
  rw [Installation.ofConfigMap, if_pos hsome]
  rfl

/-- The settings of a cluster can be edited: the config map for domains is there and belongs to no
operator, and the one with the settings is there. -/
structure Editable
    (view : View σ)
    (s : σ) :
    Prop where
  standalone :
    ∃ c, view.configMap? s Exchange.domainMap = some c ∧ ∀ o ∈ c.ownerList, ¬ Operates o
  settings :
    ∃ c, view.configMap? s settingsMap = some c

/-- What goes on behind the look at the installation. -/
theorem effect_installation
    {c : ConfigMap}
    {s : σ}
    {requests : List Request}
    (hc : effect server (Exchange.fetch Exchange.domainMap) s = ⟨.done c, requests, s⟩) :
    effect server Exchange.installation s = ⟨.done (.ofConfigMap c), requests, s⟩ := by
  simp [Exchange.installation, effect_bind, hc, Effect.andThen]

section Writing

variable (h : server.ServesObjects view)
include h

/-- Accepted changes fail where the settings cannot be edited, after having got config maps only. -/
theorem effect_carryOut_of_not_editable
    (changes : Changes)
    {s : σ}
    (hs : ¬ Editable view s) :
    ∃ failure requests,
      effect server changes.carryOut s = ⟨.failed failure, requests, s⟩ ∧
      ∀ r ∈ requests, r.action = .get := by
  cases hdomain : view.configMap? s Exchange.domainMap with
  | none =>
      obtain ⟨failure, hfetch⟩ := h.effect_fetch_of_none literal_domainMap hdomain
      refine ⟨failure, [Request.getMap Exchange.domainMap], ?_, by simp [Request.getMap]⟩
      simp [Changes.carryOut, Exchange.installation, effect_bind, hfetch, Effect.andThen]
  | some d =>
      have hinstallation := effect_installation (h.effect_fetch literal_domainMap hdomain)
      by_cases howner : ∀ o ∈ d.ownerList, ¬ Operates o
      · have hnone : view.configMap? s settingsMap = none := by
          cases hsettings : view.configMap? s settingsMap with
          | none => rfl
          | some c => exact absurd ⟨⟨d, hdomain, howner⟩, ⟨c, hsettings⟩⟩ hs
        obtain ⟨failure, hfetch⟩ := h.effect_fetch_of_none literal_settingsMap hnone
        refine ⟨.because .configMapsNotFetched failure,
          [Request.getMap Exchange.domainMap, Request.getMap settingsMap], ?_,
          by simp [Request.getMap]⟩
        simp [Changes.carryOut, effect_bind, hinstallation, Effect.andThen, fetchSettings, hfetch,
          ensureEditable_ofConfigMap_of_none howner, Outcome.inContext]
      · obtain ⟨o, ho, hoperates⟩ : ∃ o ∈ d.ownerList, Operates o := by
          simpa using howner
        refine ⟨.of .operatorManaged, [Request.getMap Exchange.domainMap], ?_,
          by simp [Request.getMap]⟩
        simp [Changes.carryOut, effect_bind, hinstallation, Effect.andThen,
          ensureEditable_ofConfigMap_of_exists ho hoperates]

/-- Accepted changes come to their end with the config map of the settings, once that and the one
for domains have been got. -/
theorem effect_carryOut_of_editable
    (changes : Changes)
    {s : σ}
    {c : ConfigMap}
    (hs : Editable view s)
    (hc : view.configMap? s settingsMap = some c) :
    effect server changes.carryOut s =
      { effect server (changes.finish c) s with
        requests := Request.getMap Exchange.domainMap :: Request.getMap settingsMap ::
          (effect server (changes.finish c) s).requests } := by
  obtain ⟨d, hdomain, howner⟩ := hs.standalone
  have hinstallation := effect_installation (h.effect_fetch literal_domainMap hdomain)
  have hfetch := h.effect_fetch literal_settingsMap hc
  simp [Changes.carryOut, effect_bind, hinstallation, Effect.andThen, fetchSettings, hfetch,
    ensureEditable_ofConfigMap_of_none howner, Outcome.inContext]

end Writing

/-- Changes that do not alter the settings request nothing more. -/
theorem effect_finish_of_not_alters
    {changes : Changes}
    {c : ConfigMap}
    (hc : changes.alters c.settings = false)
    (s : σ) :
    effect server (changes.finish c) s = ⟨.done (), [], s⟩ := by
  simp [Changes.finish, Changes.write, hc, effect_bind, Effect.andThen]

/-- Changes that alter the settings replace the config map that was fetched. -/
theorem effect_finish_of_alters
    (h : server.ServesObjects view)
    {changes : Changes}
    {s : σ}
    {c : ConfigMap}
    (hc : view.configMap? s settingsMap = some c)
    (halters : changes.alters c.settings = true) :
    effect server (changes.finish c) s =
      ⟨.done (), [Request.putMap settingsMap (changes.applyToMap c)],
        (server.answer s (Request.putMap settingsMap (changes.applyToMap c))).2⟩ := by
  obtain ⟨answered, hreplace⟩ :=
    h.effect_replace literal_settingsMap hc
      ((changes.name?_applyToMap c).trans (h.named hc)) (changes.version?_applyToMap c)
  simp [Changes.finish, Changes.write, halters, effect_bind, Effect.andThen, hreplace,
    Outcome.inContext]

/-- A cluster in which the config map for domains belongs to an object of another group and no
settings have been made. -/
def freshCluster :
    Versioned where
  configMaps := KeyMap.ofList [
    (Exchange.domainMap,
      ⟨some { owners := some [⟨"apps/v1", "KnativeServing", "serving", "1", none, none⟩] },
        none, none⟩, 1),
    (settingsMap, ⟨none, none, none⟩, 4)]
  namespaces := ["default", "knative-serving"]
  secrets := []
  claims := [⟨"example.com", "default"⟩]

theorem editable_freshCluster :
    Editable Versioned.view freshCluster := by
  refine ⟨⟨_, rfl, ?_⟩, ⟨_, rfl⟩⟩
  rintro o ho ⟨hgroup, _⟩
  cases List.mem_singleton.mp ho
  exact absurd hgroup (by decide)

end Autoscaling
end ServingAdmin
