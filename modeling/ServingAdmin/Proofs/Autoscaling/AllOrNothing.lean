import ServingAdmin.Proofs.Autoscaling.UpdateEffect
import ServingAdmin.Proofs.Run.Effect

/-!
# An update is made as a whole or not at all

A run that updates the settings succeeds exactly if its update is accepted and the settings
of the cluster can be edited.  Then the accepted changes go over the settings, nothing else
changes, and the config map is replaced only if the changes alter it, so that the same run
once more changes nothing.  A run that fails leaves the cluster as it was.
-/

namespace ServingAdmin
namespace Autoscaling

open Cluster
open Script

variable {σ : Type}
variable {server : Server σ} {view : View σ}

/-- A request that replaces a config map. -/
def IsReplacement
    (r : Request) :
    Prop :=
  ∃ c, r.action = .replace c

/-- Changes were made to the settings and to nothing else, by a replacement exactly if they alter
the settings. -/
structure Changes.MadeBetween
    (view : View σ)
    (changes : Changes)
    (s s' : σ)
    (requests : List Request) :
    Prop where
  settings :
    ∃ c c', view.configMap? s settingsMap = some c ∧ view.configMap? s' settingsMap = some c' ∧
      (∀ k, c'.settings.get? k = (changes.values.get? k).or (c.settings.get? k)) ∧
      ((∃ r ∈ requests, IsReplacement r) ↔ c'.settings ≠ c.settings)
  others :
    view.AgreeExceptMap settingsMap s s'

/-- The settings can still be edited after a change to them. -/
theorem Editable.of_agree
    {s s' : σ}
    (hs : Editable view s)
    (hagree : view.AgreeExceptMap settingsMap s s')
    (hsettings : ∃ c, view.configMap? s' settingsMap = some c) :
    Editable view s' := by
  obtain ⟨d, hd, howner⟩ := hs.standalone
  refine ⟨⟨d, ?_, howner⟩, hsettings⟩
  rw [hagree.configMaps Exchange.domainMap (by decide)]
  exact hd

section CarryingOut

variable (h : server.ServesObjects view)
include h

/-- Changes that do not alter the settings end well, without a replacement and without a trace. -/
theorem effect_carryOut_of_not_alters
    {changes : Changes}
    {s : σ}
    {c : ConfigMap}
    (hs : Editable view s)
    (hc : view.configMap? s settingsMap = some c)
    (halters : changes.alters c.settings = false) :
    effect server changes.carryOut s =
      ⟨.done (), [Request.getMap Exchange.domainMap, Request.getMap settingsMap], s⟩ := by
  rw [effect_carryOut_of_editable h changes hs hc, effect_finish_of_not_alters halters]

/-- Where the settings can be edited, accepted changes are made, and are not altered by making them
once more. -/
theorem madeBetween_carryOut
    (changes : Changes)
    {s : σ}
    (hs : Editable view s) :
    (effect server changes.carryOut s).outcome = .done () ∧
      changes.MadeBetween view s (effect server changes.carryOut s).state
        (effect server changes.carryOut s).requests ∧
      ∃ c', view.configMap? (effect server changes.carryOut s).state settingsMap = some c' ∧
        changes.alters c'.settings = false := by
  obtain ⟨c, hc⟩ := hs.settings
  cases halters : changes.alters c.settings with
  | false =>
      have hself := (changes.alters_eq_false_iff c.settings).mp halters
      rw [effect_carryOut_of_not_alters h hs hc halters]
      refine ⟨rfl, ⟨⟨c, c, hc, hc, fun k => ?_, ?_⟩, View.AgreeExceptMap.refl view _ s⟩,
        c, hc, halters⟩
      · rw [← changes.get?_applyTo, hself]
      · simp [IsReplacement, Request.getMap]
  | true =>
      rw [effect_carryOut_of_editable h changes hs hc, effect_finish_of_alters h hc halters]
      have hmet := h.accepted literal_settingsMap
        ((changes.name?_applyToMap c).trans (h.named hc)) hc (changes.version?_applyToMap c)
      obtain ⟨version, hc'⟩ := h.replaced literal_settingsMap hmet
      refine ⟨rfl, ⟨⟨c, _, hc, hc', fun k => ?_, ?_⟩, h.othersKept literal_settingsMap⟩, _,
        hc', ?_⟩
      · simp [changes.get?_applyTo]
      · have hne := (changes.alters_iff c.settings).mp halters
        simpa [IsReplacement, Request.putMap] using hne
      · simpa using changes.alters_applyTo c.settings

end CarryingOut

/-- A run that updates the settings succeeds exactly if its update is accepted and the settings can
be edited.  If it succeeds, the accepted changes are made and the same run once more succeeds
without a replacement and without a trace; if it fails, nothing has changed. -/
theorem update_allOrNothing
    (h : server.ServesObjects view)
    {isThere : String → Bool}
    {words : List String}
    {i : Invocation}
    {u : Update}
    {parameters : Parameters}
    (hwords : Invocation.read words = .ok i)
    (hcommand : i.command = .updateSettings u)
    (hparameters : Parameters.resolve isThere i.kubeConfig = .ok parameters)
    (s : σ) :
    let run := (Run.ofWords isThere server words s).1
    let s' := (Run.ofWords isThere server words s).2
    (run.exitCode = 0 ↔ (∃ changes, u.check = .ok changes) ∧ Editable view s) ∧
      (run.exitCode = 0 →
        ∃ changes, u.check = .ok changes ∧
          changes.MadeBetween view s s' run.requests ∧
          (Run.ofWords isThere server words s').1.exitCode = 0 ∧
          (∀ r ∈ (Run.ofWords isThere server words s').1.requests, ¬ IsReplacement r) ∧
          (Run.ofWords isThere server words s').2 = s') ∧
      (run.exitCode ≠ 0 → s' = s) := by
  have heffect : ∀ s, effect server (i.script isThere) s = effect server (updateCommand u) s := by
    intro s
    rw [Invocation.effect_script hparameters, hcommand]
    rfl
  simp only [Run.exitCode_ofWords_eq_zero_iff hwords, Run.requests_ofWords hwords,
    Run.state_ofWords hwords, heffect, ne_eq]
  cases hu : u.check with
  | error failure => simp [effect_updateCommand_of_error hu]
  | ok changes =>
      simp only [effect_updateCommand_of_ok hu, Except.ok.injEq, exists_eq', true_and]
      by_cases hs : Editable view s
      · obtain ⟨hdone, hmade, c', hc', halters⟩ := madeBetween_carryOut h changes hs
        refine ⟨⟨fun _ => hs, fun _ => hdone⟩, fun _ => ⟨changes, rfl, hmade, ?_⟩,
          fun hnot => absurd hdone hnot⟩
        rw [effect_carryOut_of_not_alters h (hs.of_agree hmade.others ⟨c', hc'⟩) hc' halters]
        simp [IsReplacement, Request.getMap]
      · obtain ⟨failure, requests, hfailed, _⟩ := effect_carryOut_of_not_editable h changes hs
        simp [hfailed, hs]

/-- A flag and a value that are given on the command line are written where nothing was set, and
nothing else is. -/
theorem update_allOrNothing_freshCluster :
    let words := ["autoscaling", "update", "--panic-window-percentage=20", "--no-scale-to-zero"]
    let u : Update := ⟨false, true, [("panic-window-percentage", "20")]⟩
    let run := Run.ofWords (fun _ => false) Versioned.server words freshCluster
    Versioned.server.ServesObjects Versioned.view ∧
      (∃ i, Invocation.read words = .ok i ∧ i.command = .updateSettings u ∧
        Parameters.resolve (fun _ => false) i.kubeConfig = .ok ⟨none⟩) ∧
      run.1.exitCode = 0 ∧
      (∃ changes, u.check = .ok changes ∧
        changes.MadeBetween Versioned.view freshCluster run.2 run.1.requests) ∧
      (Versioned.view.configMap? run.2 settingsMap).map (fun c => c.settings.entries) =
        some [("enable-scale-to-zero", "false"), ("panic-window-percentage", "20")] := by
  intro words u run
  have hread :
      Invocation.read words =
        .ok ⟨["autoscaling", "update"], 0, false, none, .updateSettings u⟩ := by
    rfl
  obtain ⟨hiff, hmade, _⟩ :=
    update_allOrNothing Versioned.servesObjects hread rfl
      (rfl : Parameters.resolve (fun _ => false) none = .ok ⟨none⟩) freshCluster
  have hdone : run.1.exitCode = 0 :=
    hiff.mpr ⟨⟨_, rfl⟩, editable_freshCluster⟩
  obtain ⟨changes, hu, hbetween, _⟩ := hmade hdone
  refine ⟨Versioned.servesObjects, ⟨_, hread, rfl, rfl⟩, hdone, ⟨changes, hu, hbetween⟩, ?_⟩
  decide +kernel

end Autoscaling
end ServingAdmin
