import ServingAdmin.Proofs.Autoscaling.UpdateEffect
import ServingAdmin.Proofs.Run.Effect
import ServingAdmin.Proofs.Run.History

/-!
# What runs leave alone

Every run of a history changes at most what its command is about.  A run that fails and a
run that lists something leave the whole cluster as it is.  The settings change in
successful updates only, and of them only the data and the version; claims are made and
deleted in successful runs of the commands for it; and nothing else changes at all.
-/

namespace ServingAdmin

open Cluster
open Script

variable {σ : Type}
variable {server : Server σ} {view : View σ}

namespace Command

/-- A command that lists something. -/
inductive Lists : Command → Prop
  | settings
      (noHeaders : Bool) :
      Lists (.listSettings noHeaders)
  | domains
      (noHeaders : Bool) :
      Lists (.listDomains noHeaders)
  | claims
      (noHeaders : Bool) :
      Lists (.listClaims noHeaders)
  | registries
      (ns account : Option String)
      (noHeaders : Bool) :
      Lists (.listRegistries ns account noHeaders)

/-- A command that updates the settings. -/
inductive Updates : Command → Prop
  | settings
      (u : Autoscaling.Update) :
      Updates (.updateSettings u)

/-- A command that makes or deletes a claim. -/
inductive ChangesClaims : Command → Prop
  | create
      (name ns : String) :
      ChangesClaims (.createClaim name ns)
  | delete
      (name : String) :
      ChangesClaims (.deleteClaim name)

/-- A command that, if it is to delete something, is to delete a claim. -/
def DeletesClaimsOnly
    (c : Command) :
    Prop :=
  ∀ text, c = .deleteClaim text → LeadsToClaim text

theorem lists_or_updates_or_changesClaims
    (c : Command) :
    c.Lists ∨ c.Updates ∨ c.ChangesClaims := by
  cases c with
  | listSettings noHeaders => exact Or.inl (.settings noHeaders)
  | listDomains noHeaders => exact Or.inl (.domains noHeaders)
  | listClaims noHeaders => exact Or.inl (.claims noHeaders)
  | listRegistries ns account noHeaders => exact Or.inl (.registries ns account noHeaders)
  | updateSettings u => exact Or.inr (Or.inl (.settings u))
  | createClaim name ns => exact Or.inr (Or.inr (.create name ns))
  | deleteClaim name => exact Or.inr (Or.inr (.delete name))

end Command

/-- The command of a run, if its words make up one. -/
def Run.command? : Run → Option Command
  | stopped _ => none
  | played i _ => some i.command

/-- What a config map holds besides its data and its version. -/
def Cluster.ConfigMap.bare
    (c : ConfigMap) :
    ConfigMap :=
  { c.withVersion none with data := none }

theorem Cluster.ConfigMap.bare_withVersion
    (version : Option String)
    (c : ConfigMap) :
    (c.withVersion version).bare = c.bare := by
  obtain ⟨metadata, data, binaryData⟩ := c
  cases metadata <;> rfl

/-- Two states hold the same objects except for the data and the version of the settings. -/
structure Cluster.View.AgreeExceptData
    (view : View σ)
    (s s' : σ) :
    Prop extends view.AgreeExceptMap Autoscaling.settingsMap s s' where
  bare :
    (view.configMap? s' Autoscaling.settingsMap).map ConfigMap.bare =
      (view.configMap? s Autoscaling.settingsMap).map ConfigMap.bare

theorem Cluster.View.AgreeExceptData.refl
    (view : View σ)
    (s : σ) :
    view.AgreeExceptData s s :=
  ⟨View.AgreeExceptMap.refl view _ s, rfl⟩

/-- What no command is about is the same in two states. -/
structure Untouched
    (view : View σ)
    (s s' : σ) :
    Prop where
  domains :
    view.configMap? s' Exchange.domainMap = view.configMap? s Exchange.domainMap
  namespaces :
    view.namespaces s' = view.namespaces s
  secrets :
    view.secrets s' = view.secrets s

/-- A run changes at most what its command is about, and only if it succeeds. -/
structure Record.Framed
    (view : View σ)
    (r : Record σ) :
    Prop where
  /-- A run that fails changes nothing. -/
  failing :
    r.run.exitCode ≠ 0 → r.after = r.before
  /-- A run that lists something changes nothing. -/
  listing :
    (∃ c, r.run.command? = some c ∧ c.Lists) → r.after = r.before
  /-- The settings change in successful updates only. -/
  settings :
    view.configMap? r.after Autoscaling.settingsMap ≠
        view.configMap? r.before Autoscaling.settingsMap →
      r.run.exitCode = 0 ∧ ∃ c, r.run.command? = some c ∧ c.Updates
  /-- Of the settings only the data and the version change. -/
  settingsBare :
    (view.configMap? r.after Autoscaling.settingsMap).map ConfigMap.bare =
      (view.configMap? r.before Autoscaling.settingsMap).map ConfigMap.bare
  /-- Claims change in successful runs of the commands that make and delete them. -/
  claims :
    view.claims r.after ≠ view.claims r.before →
      r.run.exitCode = 0 ∧ ∃ c, r.run.command? = some c ∧ c.ChangesClaims
  /-- No other config map changes. -/
  configMaps :
    ∀ name, name ≠ Autoscaling.settingsMap →
      view.configMap? r.after name = view.configMap? r.before name
  namespaces :
    view.namespaces r.after = view.namespaces r.before
  secrets :
    view.secrets r.after = view.secrets r.before

theorem Record.Framed.of_eq
    {r : Record σ}
    (h : r.after = r.before) :
    r.Framed view := by
  obtain ⟨before, run, after⟩ := r
  cases h
  exact ⟨fun _ => rfl, fun _ => rfl, fun hne => absurd rfl hne, rfl,
    fun hne => absurd rfl hne, fun _ _ => rfl, rfl, rfl⟩

/-- An update that changes the data and the version of the settings at most, and those only if it
succeeds, is framed. -/
theorem Record.Framed.of_updates
    {r : Record σ}
    {c : Command}
    (hc : r.run.command? = some c)
    (hupdates : c.Updates)
    (hfailing : r.run.exitCode ≠ 0 → r.after = r.before)
    (hagree : view.AgreeExceptData r.before r.after) :
    r.Framed view where
  failing := hfailing
  listing := by
    rintro ⟨d, hd, hlists⟩
    cases hd.symm.trans hc
    cases hupdates
    cases hlists
  settings hne := by
    refine ⟨Decidable.byContradiction fun hcode => hne ?_, c, hc, hupdates⟩
    rw [hfailing hcode]
  settingsBare := hagree.bare
  claims hne := absurd hagree.claims hne
  configMaps := hagree.configMaps
  namespaces := hagree.namespaces
  secrets := hagree.secrets

/-- A command about claims that changes claims at most, and those only if it succeeds, is framed. -/
theorem Record.Framed.of_changesClaims
    {r : Record σ}
    {c : Command}
    (hc : r.run.command? = some c)
    (hclaims : c.ChangesClaims)
    (hfailing : r.run.exitCode ≠ 0 → r.after = r.before)
    (hagree : view.AgreeExceptClaims r.before r.after) :
    r.Framed view where
  failing := hfailing
  listing := by
    rintro ⟨d, hd, hlists⟩
    cases hd.symm.trans hc
    cases hclaims <;> cases hlists
  settings hne := absurd (hagree.configMaps _) hne
  settingsBare := congrArg _ (hagree.configMaps _)
  claims hne := by
    refine ⟨Decidable.byContradiction fun hcode => hne ?_, c, hc, hclaims⟩
    rw [hfailing hcode]
  configMaps name _ := hagree.configMaps name
  namespaces := hagree.namespaces
  secrets := hagree.secrets

/-- A run leaves the state as it is, or it leaves the one that its command leaves, and then it
succeeds exactly if its command ends well. -/
theorem after_cases
    (isThere : String → Bool)
    (words : List String)
    (s : σ) :
    (Run.record isThere server words s).after = s ∨
      ∃ i, Invocation.read words = .ok i ∧
        (Run.record isThere server words s).run.command? = some i.command ∧
        (Run.record isThere server words s).after = (effect server i.command.script s).state ∧
        ((Run.record isThere server words s).run.exitCode = 0 ↔
          (effect server i.command.script s).outcome = .done ()) := by
  cases hread : Invocation.read words with
  | error stop =>
      exact Or.inl (congrArg Prod.snd (Run.ofWords_of_stop hread s))
  | ok i =>
      have hafter :
          (Run.record isThere server words s).after = (effect server (i.script isThere) s).state :=
        Run.state_ofWords hread s
      have hexit :
          (Run.record isThere server words s).run.exitCode = 0 ↔
            (effect server (i.script isThere) s).outcome = .done () :=
        Run.exitCode_ofWords_eq_zero_iff hread s
      cases hparameters : Parameters.resolve isThere i.kubeConfig with
      | error failure =>
          rw [Invocation.effect_script_of_error hparameters] at hafter
          exact Or.inl hafter
      | ok parameters =>
          rw [Invocation.effect_script hparameters] at hafter hexit
          refine Or.inr ⟨i, rfl, ?_, hafter, hexit⟩
          exact congrArg (fun e => e.1.command?) (Run.ofWords_of_invocation hread s)

/-- Once the parameters are there, a run succeeds exactly if its command ends well. -/
theorem exitCode_record_eq_zero_iff
    (server : Server σ)
    {isThere : String → Bool}
    {words : List String}
    {i : Invocation}
    {parameters : Parameters}
    (hread : Invocation.read words = .ok i)
    (hparameters : Parameters.resolve isThere i.kubeConfig = .ok parameters)
    (s : σ) :
    (Run.record isThere server words s).run.exitCode = 0 ↔
      (effect server i.command.script s).outcome = .done () := by
  rw [← Invocation.effect_script hparameters]
  exact Run.exitCode_ofWords_eq_zero_iff hread s

theorem after_record
    (server : Server σ)
    {isThere : String → Bool}
    {words : List String}
    {i : Invocation}
    {parameters : Parameters}
    (hread : Invocation.read words = .ok i)
    (hparameters : Parameters.resolve isThere i.kubeConfig = .ok parameters)
    (s : σ) :
    (Run.record isThere server words s).after = (effect server i.command.script s).state := by
  rw [← Invocation.effect_script hparameters]
  exact Run.state_ofWords hread s

/-- A run that succeeds has its parameters. -/
theorem parameters_of_exitCode_eq_zero
    (server : Server σ)
    {isThere : String → Bool}
    {words : List String}
    {i : Invocation}
    (hread : Invocation.read words = .ok i)
    (s : σ)
    (hcode : (Run.record isThere server words s).run.exitCode = 0) :
    ∃ parameters, Parameters.resolve isThere i.kubeConfig = .ok parameters := by
  cases hparameters : Parameters.resolve isThere i.kubeConfig with
  | error failure =>
      have hdone := (Run.exitCode_ofWords_eq_zero_iff hread s).mp hcode
      rw [Invocation.effect_script_of_error hparameters] at hdone
      cases hdone
  | ok parameters => exact ⟨parameters, rfl⟩

theorem reads_examine
    (u : Autoscaling.Update) :
    Reads server u.examine :=
  Reads.bind (Reads.reportAll _) fun _ => Reads.ofExcept _

section Commands

variable (h : server.KeepsObjects view)
include h

/-- The commands that list something only read. -/
theorem reads_of_lists
    {c : Command}
    (hc : c.Lists) :
    Reads server c.script := by
  cases hc with
  | settings noHeaders =>
      exact Reads.bind (Reads.context (h.reads_fetch _)) fun _ => Reads.printListing _
  | domains noHeaders =>
      exact Reads.bind (Reads.context (h.reads_fetch _)) fun _ => Reads.printListing _
  | claims noHeaders =>
      exact Reads.bind h.reads_claims fun _ =>
        Reads.bind (Reads.ofOption _) fun _ => Reads.printListing _
  | registries ns account noHeaders =>
      refine Reads.bind (Reads.ofExcept _) fun q => ?_
      refine Reads.bind ?_ fun names =>
        Reads.bind (h.reads_secretsOf names) fun _ => Reads.printListing _
      exact Reads.bind (Reads.context h.reads_namespaces) fun _ => Reads.ofExcept _

/-- What is fetched as the settings is held as the settings. -/
theorem configMap?_of_fetchSettings
    {s : σ}
    {c : ConfigMap}
    (hc : (effect server Autoscaling.fetchSettings s).outcome = .done c) :
    view.configMap? s Autoscaling.settingsMap = some c := by
  rw [Autoscaling.fetchSettings, effect_context, Outcome.inContext_eq_done] at hc
  exact h.configMap?_of_fetch Autoscaling.literal_settingsMap hc

/-- The end of an update is all or nothing. -/
theorem allOrNothing_finish
    (changes : Autoscaling.Changes)
    {c : ConfigMap}
    (hc : c.name? = some Autoscaling.settingsMap) :
    AllOrNothing server (changes.finish c) := by
  refine AllOrNothing.bind_of_done ?_ fun _ _ => ⟨(), rfl⟩
  refine Reads.bind_allOrNothing (Reads.reportAll _) fun _ _ _ => ?_
  split
  · have hreplace := h.allOrNothing_replace Autoscaling.literal_settingsMap
      ((changes.name?_applyToMap c).trans hc)
    exact AllOrNothing.bind_of_done (AllOrNothing.context hreplace) fun _ _ => ⟨(), rfl⟩
  · exact (Reads.report (Reads.done ())).allOrNothing

theorem allOrNothing_updateCommand
    (u : Autoscaling.Update) :
    AllOrNothing server (Autoscaling.updateCommand u) := by
  refine Reads.bind_allOrNothing (reads_examine u) fun _ _ _ => ?_
  refine Reads.bind_allOrNothing (reads_examine u) fun changes _ _ => ?_
  refine Reads.bind_allOrNothing h.reads_installation fun _ _ _ => ?_
  refine Reads.bind_allOrNothing (Reads.ofExcept _) fun _ _ _ => ?_
  refine Reads.bind_allOrNothing (Reads.context (h.reads_fetch _)) fun m s hm => ?_
  exact allOrNothing_finish h changes (h.named (configMap?_of_fetchSettings h hm))

/-- Replacing the settings by what was made of those that are held changes their data and version,
and nothing else. -/
theorem agreeExceptData_replace
    (changes : Autoscaling.Changes)
    {s : σ}
    {c : ConfigMap}
    (hc : view.configMap? s Autoscaling.settingsMap = some c) :
    view.AgreeExceptData s (effect server (Exchange.replace (changes.applyToMap c)) s).state := by
  have hname : (changes.applyToMap c).name? = some Autoscaling.settingsMap :=
    (changes.name?_applyToMap c).trans (h.named hc)
  rw [effect_replace_of_name hname,
    effect_call (Call.request?_replace Autoscaling.literal_settingsMap.plain _)]
  refine ⟨h.othersKept Autoscaling.literal_settingsMap, ?_⟩
  by_cases hmet : Expectation.configMap.IsMet
      (server.answer s (Request.putMap Autoscaling.settingsMap (changes.applyToMap c))).1
  · obtain ⟨version, hheld⟩ := h.replaced Autoscaling.literal_settingsMap hmet
    simp only [hheld, hc, Option.map_some, ConfigMap.bare_withVersion]
    rfl
  · simp only [h.kept Autoscaling.literal_settingsMap hmet]

/-- An update changes the data and the version of the settings, and nothing else. -/
theorem agreeExceptData_updateCommand
    (u : Autoscaling.Update)
    (s : σ) :
    view.AgreeExceptData s (effect server (Autoscaling.updateCommand u) s).state := by
  have hrefl := View.AgreeExceptData.refl view s
  refine Reads.state_bind (reads_examine u) hrefl fun _ _ => ?_
  refine Reads.state_bind (reads_examine u) hrefl fun changes _ => ?_
  refine Reads.state_bind h.reads_installation hrefl fun _ _ => ?_
  refine Reads.state_bind (Reads.ofExcept _) hrefl fun _ _ => ?_
  refine Reads.state_bind (Reads.context (h.reads_fetch _)) hrefl fun m hm => ?_
  change view.AgreeExceptData s (effect server (changes.finish m) s).state
  rw [Autoscaling.Changes.finish, state_bind_of_reads _ fun _ => Reads.print (Reads.done ())]
  refine Reads.state_bind (Reads.reportAll _) hrefl fun _ _ => ?_
  split
  · rw [state_bind_of_reads _ fun _ => Reads.done (), effect_context]
    exact agreeExceptData_replace h changes (configMap?_of_fetchSettings h hm)
  · exact hrefl

theorem agreeExceptData_script
    {c : Command}
    (hupdates : c.Updates)
    (s : σ) :
    view.AgreeExceptData s (effect server c.script s).state := by
  cases hupdates with
  | settings u => exact agreeExceptData_updateCommand h u s

end Commands

section ClaimCommands

theorem allOrNothing_createCommand
    (h : server.MakesClaims view)
    (name ns : String) :
    AllOrNothing server (Claim.createCommand name ns) := by
  refine Reads.bind_allOrNothing (Reads.ofExcept _) fun _ _ _ => ?_
  exact AllOrNothing.bind_of_done (h.allOrNothing_create _) fun _ _ => ⟨(), rfl⟩

/-- The command that makes a claim changes nothing else. -/
theorem agreeExceptClaims_createCommand
    (h : server.MakesClaims view)
    (name ns : String)
    (s : σ) :
    view.AgreeExceptClaims s (effect server (Claim.createCommand name ns) s).state := by
  refine Reads.state_bind (Reads.ofExcept _) (View.AgreeExceptClaims.refl view s) fun _ _ => ?_
  rw [state_bind_of_reads _ fun _ => Reads.print (Reads.done ()), Exchange.create, effect_report,
    effect_call (Call.request?_create ⟨name, ns⟩)]
  exact h.created

theorem allOrNothing_deleteCommand
    {text : String}
    (h : AllOrNothing server (Exchange.delete text)) :
    AllOrNothing server (Claim.deleteCommand text) :=
  AllOrNothing.bind_of_done h fun _ _ => ⟨(), rfl⟩

variable (h : server.ConfinesDeletions view)
include h

/-- The command that deletes a claim changes nothing else. -/
theorem agreeExceptClaims_deleteCommand
    {text : String}
    (htext : LeadsToClaim text)
    (s : σ) :
    view.AgreeExceptClaims s (effect server (Claim.deleteCommand text) s).state := by
  change view.AgreeExceptClaims s (effect server (Exchange.delete text >>= _) s).state
  rw [state_bind_of_reads _ fun _ => Reads.print (Reads.done ()), Exchange.delete, effect_report]
  cases hr : (Call.delete text).request? with
  | none =>
      rw [effect_call_of_none hr]
      exact View.AgreeExceptClaims.refl view s
  | some r =>
      obtain ⟨name, hdeletes⟩ := htext r hr
      rw [effect_call hr]
      exact h.deleted hdeletes

/-- Every command is all or nothing, if it deletes nothing but claims. -/
theorem allOrNothing_script
    {c : Command}
    (hc : c.DeletesClaimsOnly) :
    AllOrNothing server c.script := by
  rcases c.lists_or_updates_or_changesClaims with hlists | hupdates | hclaims
  · exact (reads_of_lists h.toKeepsObjects hlists).allOrNothing
  · cases hupdates with
    | settings u => exact allOrNothing_updateCommand h.toKeepsObjects u
  · cases hclaims with
    | create name ns => exact allOrNothing_createCommand h.toMakesClaims name ns
    | delete text => exact allOrNothing_deleteCommand (h.allOrNothing_delete (hc text rfl))

/-- The commands that make and delete claims change nothing else. -/
theorem agreeExceptClaims_script
    {c : Command}
    (hclaims : c.ChangesClaims)
    (hc : c.DeletesClaimsOnly)
    (s : σ) :
    view.AgreeExceptClaims s (effect server c.script s).state := by
  cases hclaims with
  | create name ns => exact agreeExceptClaims_createCommand h.toMakesClaims name ns s
  | delete text => exact agreeExceptClaims_deleteCommand h (hc text rfl) s

end ClaimCommands

/-- A run that fails leaves the state as it is, if its command is all or nothing. -/
theorem after_eq_of_exitCode
    {words : List String}
    (hcommand : ∀ i, Invocation.read words = .ok i → AllOrNothing server i.command.script)
    (isThere : String → Bool)
    (s : σ)
    (hcode : (Run.record isThere server words s).run.exitCode ≠ 0) :
    (Run.record isThere server words s).after = s := by
  rcases after_cases isThere words s with hsame | ⟨i, hread, _, hafter, hexit⟩
  · exact hsame
  · exact hafter.trans (hcommand i hread s fun _ hdone => hcode (hexit.mpr hdone))

/-- Every run changes at most what its command is about, if that deletes nothing but claims. -/
theorem framed_record
    (h : server.ConfinesDeletions view)
    {words : List String}
    (hwords : ∀ i, Invocation.read words = .ok i → i.command.DeletesClaimsOnly)
    (isThere : String → Bool)
    (s : σ) :
    (Run.record isThere server words s).Framed view := by
  have hfailing := after_eq_of_exitCode
    (fun i hi => allOrNothing_script h (hwords i hi)) isThere s
  rcases after_cases isThere words s with hsame | ⟨i, hi, hc, hafter, _⟩
  · exact .of_eq hsame
  · rcases i.command.lists_or_updates_or_changesClaims with hlists | hupdates | hclaims
    · exact .of_eq (hafter.trans (reads_of_lists h.toKeepsObjects hlists s))
    · refine .of_updates hc hupdates hfailing ?_
      rw [hafter]
      exact agreeExceptData_script h.toKeepsObjects hupdates s
    · refine .of_changesClaims hc hclaims hfailing ?_
      rw [hafter]
      exact agreeExceptClaims_script h hclaims (hwords i hi) s

/-- The runs of a sequence that deletes nothing but claims are those of a history in which every run
changes at most what its command is about, and what no command is about is never changed. -/
theorem sequence_framed
    (h : server.ConfinesDeletions view)
    {lines : List (List String)}
    (hlines :
      ∀ words ∈ lines, ∀ i, Invocation.read words = .ok i → i.command.DeletesClaimsOnly)
    (isThere : String → Bool)
    (s : σ) :
    let records := Run.history isThere server lines s
    Run.sequence isThere server lines s =
        (records.map Record.run, (records.map Record.after).getLastD s) ∧
      ∀ r ∈ records, r.Framed view ∧ Untouched view s r.after := by
  refine ⟨Run.sequence_eq_history isThere server lines s, ?_⟩
  intro r hr
  constructor
  · obtain ⟨words, hwords, hrecord⟩ := Run.exists_of_mem_history hr
    rw [hrecord]
    exact framed_record h (hlines words hwords) isThere r.before
  · refine Run.history_invariant (P := Untouched view s) ?_ ⟨rfl, rfl, rfl⟩ hr
    intro words hwords s' hs'
    have hframed := framed_record h (hlines words hwords) isThere s'
    exact ⟨(hframed.configMaps _ (by decide)).trans hs'.domains,
      hframed.namespaces.trans hs'.namespaces, hframed.secrets.trans hs'.secrets⟩

/-- A claim is made, the domains are listed, a name is claimed twice, the settings are updated, and
a claim is deleted twice, the first time with something behind a hash sign. -/
theorem sequence_framed_freshCluster :
    let lines := [
      ["cdc", "create", "example", "--namespace", "default"],
      ["domain", "list"],
      ["cdc", "create", "example", "--namespace", "default"],
      ["autoscaling", "update", "--no-scale-to-zero"],
      ["cdc", "delete", "example#old"],
      ["cdc", "delete", "example"]]
    let records := Run.history (fun _ => false) Versioned.server lines Autoscaling.freshCluster
    Versioned.server.ConfinesDeletions Versioned.view ∧
      (∀ words ∈ lines, ∀ i, Invocation.read words = .ok i → i.command.DeletesClaimsOnly) ∧
      records.map (fun r => r.run.exitCode) = [0, 0, 1, 0, 0, 1] ∧
      ∀ r ∈ records,
        r.Framed Versioned.view ∧ Untouched Versioned.view Autoscaling.freshCluster r.after := by
  intro lines records
  have hliteral : LiteralSegment "example" := .of_dnsLabel (by decide) (by decide)
  have hbehind : LeadsToClaim ("example" ++ "#" ++ "old") := .append_hash hliteral "old"
  have hlines :
      ∀ words ∈ lines, ∀ i, Invocation.read words = .ok i → i.command.DeletesClaimsOnly := by
    intro words hwords i hi text htext
    simp only [lines, List.mem_cons, List.not_mem_nil, or_false] at hwords
    rcases hwords with rfl | rfl | rfl | rfl | rfl | rfl <;> cases hi <;> cases htext
    · exact hbehind
    · exact .of_literal hliteral
  obtain ⟨_, hframed⟩ :=
    sequence_framed Versioned.confinesDeletions hlines (fun _ => false) Autoscaling.freshCluster
  exact ⟨Versioned.confinesDeletions, hlines, rfl, hframed⟩

/-- The way from the claims to the config map of the domains. -/
def pathToDomains : String :=
  "../../../../api/v1/namespaces/knative-serving/configmaps/config-domain"

/-- A text that leads from the claims to the config map of the domains deletes that, on a server
that changes nothing but by requests that it answers with success. -/
theorem delete_leadingToDomains :
    let r := Run.record (fun _ => false) Versioned.server ["cdc", "delete", pathToDomains]
      Autoscaling.freshCluster
    Versioned.server.ChangesOnSuccess ∧
      r.run.exitCode = 0 ∧
      r.run.requests = [⟨.delete, ⟨(Route.configMap Exchange.domainMap).path, some []⟩⟩] ∧
      (Versioned.view.configMap? r.before Exchange.domainMap).isSome = true ∧
      Versioned.view.configMap? r.after Exchange.domainMap = none := by
  refine ⟨Versioned.changesOnSuccess, ?_⟩
  decide +kernel

end ServingAdmin
