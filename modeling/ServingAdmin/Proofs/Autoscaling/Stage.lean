import ServingAdmin.Proofs.Autoscaling.Interleaving
import ServingAdmin.Proofs.Autoscaling.UpdateEffect

/-!
# Stages of an update

An update that is under way has made no request yet, or is about to fetch the settings, or
is about to replace them, or has ended.  What it is about to write was made of settings
that it has read: if the revision is still the one that they belong to, they are the ones
that are held.

A request takes an update from one stage to another (`Stage.answered`).  It changes nothing
unless it is the last one of an update that succeeds, and that makes the changes of the
update in one go.
-/

namespace ServingAdmin
namespace Autoscaling

open Cluster
open Script

variable {σ : Type}
variable {server : Server σ} {view : View σ} {revision : σ → Nat} {stamp : Nat → String}

/-- The replacement at the end of an update, and what is printed behind it. -/
def Changes.overwrite
    (changes : Changes)
    (c : ConfigMap) :
    Script Unit := do
  let _ ← (Exchange.replace (changes.applyToMap c)).context
    (.configMapNotUpdated settingsMap servingNamespace)
  print "Updated Knative autoscaling config\n" (done ())

/-- What comes behind a look at the installation. -/
def Changes.proceed
    (changes : Changes)
    (d : ConfigMap) :
    Script Unit := do
  ofExcept (Installation.ofConfigMap d).ensureEditable
  let c ← fetchSettings
  changes.finish c

theorem settle_examine_bind
    {α : Type}
    (u : Update)
    (f : Changes → Script α) :
    settle (u.examine >>= f) = settle (Script.ofExcept u.check >>= f) := by
  rw [Update.examine, bind_assoc, settle_reportAll_bind]

theorem settle_updateCommand_of_ok
    {u : Update}
    {changes : Changes}
    (hu : u.check = .ok changes) :
    settle (updateCommand u) = settle changes.carryOut := by
  rw [updateCommand_eq, settle_examine_bind, hu]
  change settle (u.examine >>= Changes.carryOut) = _
  rw [settle_examine_bind, hu]
  rfl

theorem settle_updateCommand_of_error
    {u : Update}
    {failure : Failure}
    (hu : u.check = .error failure) :
    settle (updateCommand u) = fail failure := by
  rw [updateCommand_eq, settle_examine_bind, hu]
  rfl

/-- Accepted changes ask for the config map of the domains first. -/
theorem asks_carryOut
    (changes : Changes) :
    Asks changes.carryOut (Request.getMap Exchange.domainMap) Expectation.configMap
      changes.proceed := by
  have hfetch := (Asks.call (Call.request?_fetch literal_domainMap.plain)).report
    (.fetching Exchange.domainMap)
  refine ((hfetch.bind _).bind _).congr fun d => ?_
  rw [done_bind, bind_assoc, settle_reportAll_bind]
  rfl

/-- Behind the look at the installation the settings are asked for, if they can be edited. -/
theorem settle_proceed
    (changes : Changes)
    (d : ConfigMap) :
    settle (changes.proceed d) = settle (fetchSettings >>= changes.finish) ∨
      ∃ failure, settle (changes.proceed d) = fail failure := by
  rw [Changes.proceed]
  cases (Installation.ofConfigMap d).ensureEditable with
  | ok _ => exact Or.inl rfl
  | error failure => exact Or.inr ⟨failure, rfl⟩

theorem asks_fetchSettings
    (changes : Changes) :
    Asks (fetchSettings >>= changes.finish) (Request.getMap settingsMap) Expectation.configMap
      changes.finish := by
  have hcall := Asks.call (Call.request?_fetch literal_settingsMap.plain)
  have hfetch := hcall.report (.fetching settingsMap)
  exact (hfetch.context .configMapsNotFetched).bind changes.finish

theorem settle_finish_of_alters
    {changes : Changes}
    {c : ConfigMap}
    (hc : changes.alters c.settings = true) :
    settle (changes.finish c) = settle (changes.overwrite c) := by
  rw [Changes.finish, Changes.write, bind_assoc, settle_reportAll_bind, if_pos hc, bind_assoc]
  rfl

theorem settle_finish_of_not_alters
    {changes : Changes}
    {c : ConfigMap}
    (hc : changes.alters c.settings = false) :
    settle (changes.finish c) = done () := by
  rw [Changes.finish, Changes.write, bind_assoc, settle_reportAll_bind, hc]
  rfl

/-- What was made of the settings asks to replace them. -/
theorem asks_overwrite
    (changes : Changes)
    {c : ConfigMap}
    (hc : c.name? = some settingsMap) :
    Asks (changes.overwrite c) (Request.putMap settingsMap (changes.applyToMap c))
      Expectation.configMap fun _ => done () := by
  have hreplace :
      Exchange.replace (changes.applyToMap c) =
        report (.replacing settingsMap)
          (call (Call.replace settingsMap (changes.applyToMap c))) := by
    rw [Exchange.replace, changes.name?_applyToMap, hc]
    rfl
  have hcall :=
    Asks.call (Call.request?_replace literal_settingsMap.plain (changes.applyToMap c))
  have hreported := hcall.report (.replacing settingsMap)
  rw [Changes.overwrite, hreplace]
  exact ((hreported.context _).bind _).congr fun _ => rfl

/-- How far an update has come in a state, by the script that is left of it. -/
inductive Stage
    (view : View σ)
    (revision : σ → Nat)
    (stamp : Nat → String)
    (u : Update)
    (s : σ) :
    Script Unit → Prop
  | starting :
      Stage view revision stamp u s (settle (updateCommand u))
  | fetching
      {changes : Changes} :
      u.check = .ok changes →
        Stage view revision stamp u s (settle (fetchSettings >>= changes.finish))
  | writing
      {changes : Changes}
      {c : ConfigMap}
      {k : Nat} :
      u.check = .ok changes →
        c.name? = some settingsMap →
          c.version? = some (stamp k) →
            k ≤ revision s →
              (revision s = k → view.configMap? s settingsMap = some c) →
                Stage view revision stamp u s (settle (changes.overwrite c))
  | succeeded :
      Stage view revision stamp u s (done ())
  | failed
      {failure : Failure} :
      Stage view revision stamp u s (fail failure)

/-- An update stays at its stage while the settings go on. -/
theorem Stage.of_later
    {u : Update}
    {s s' : σ}
    {x : Script Unit}
    (hx : Stage view revision stamp u s x)
    (hlater : Later view revision s s') :
    Stage view revision stamp u s' x := by
  cases hx with
  | starting => exact .starting
  | fetching hu => exact .fetching hu
  | succeeded => exact .succeeded
  | failed => exact .failed
  | writing hu hname hversion hle hheld =>
      rcases hlater with hlt | ⟨hsame, hmap⟩
      · refine .writing hu hname hversion (by omega) fun hk => ?_
        omega
      · refine .writing hu hname hversion (by omega) fun hk => ?_
        rw [hmap]
        exact hheld (by omega)

/-- What an answered request comes to: nothing yet, or the changes of an update that succeeds. -/
inductive Stage.Answered
    (view : View σ)
    (revision : σ → Nat)
    (stamp : Nat → String)
    (u : Update)
    (s : σ) :
    σ → Script Unit → Prop
  | quiet
      {x : Script Unit} :
      Stage view revision stamp u s x →
        x ≠ done () →
          Answered view revision stamp u s s x
  | effective
      {changes : Changes}
      {s' : σ} :
      u.check = .ok changes →
        data? view s' = (data? view s).map changes.applyTo →
          Later view revision s s' →
            Answered view revision stamp u s s' (done ())

section Answers

variable (h : server.CountsRevisions view settingsMap revision stamp)
include h

theorem answered_starting
    {u : Update}
    {s : σ}
    {r : Request}
    {next : Response → Script Unit}
    (hsend : settle (updateCommand u) = send r next) :
    Stage.Answered view revision stamp u s (server.answer s r).2
      (settle (next (server.answer s r).1)) := by
  cases hu : u.check with
  | error failure =>
      rw [settle_updateCommand_of_error hu] at hsend
      cases hsend
  | ok changes =>
      rw [settle_updateCommand_of_ok hu] at hsend
      obtain ⟨rfl, hnext⟩ := (asks_carryOut changes).answered hsend
      rw [h.untouched rfl]
      rcases hnext (server.answer s (Request.getMap Exchange.domainMap)).1 with
        ⟨d, _, hd⟩ | ⟨_, failure, hfail⟩
      · rw [hd]
        rcases settle_proceed changes d with hfetch | ⟨failure, hfail⟩
        · rw [hfetch]
          exact .quiet (.fetching hu) ((asks_fetchSettings changes).settle_ne_done ())
        · rw [hfail]
          exact .quiet .failed (by simp)
      · rw [hfail]
        exact .quiet .failed (by simp)

theorem answered_fetching
    {u : Update}
    {changes : Changes}
    {s : σ}
    {r : Request}
    {next : Response → Script Unit}
    (hu : u.check = .ok changes)
    (hsend : settle (fetchSettings >>= changes.finish) = send r next) :
    Stage.Answered view revision stamp u s (server.answer s r).2
      (settle (next (server.answer s r).1)) := by
  obtain ⟨rfl, hnext⟩ := (asks_fetchSettings changes).answered hsend
  rw [h.untouched rfl]
  rcases hnext (server.answer s (Request.getMap settingsMap)).1 with
    ⟨c, htake, hc⟩ | ⟨_, failure, hfail⟩
  · have hheld : view.configMap? s settingsMap = some c :=
      h.held literal_settingsMap htake
    rw [hc]
    cases halters : changes.alters c.settings with
    | true =>
        have hname := h.named hheld
        rw [settle_finish_of_alters halters]
        exact .quiet (.writing hu hname (h.stamped hheld) (Nat.le_refl _) fun _ => hheld)
          ((asks_overwrite changes hname).settle_ne_done ())
    | false =>
        rw [settle_finish_of_not_alters halters]
        refine .effective hu ?_ (Or.inr ⟨rfl, rfl⟩)
        have hself := (changes.alters_eq_false_iff c.settings).mp halters
        simp [data?, hheld, hself]
  · rw [hfail]
    exact .quiet .failed (by simp)

/-- A replacement is confirmed only if the settings are still those that were read. -/
theorem answered_writing
    {u : Update}
    {changes : Changes}
    {s : σ}
    {c : ConfigMap}
    {k : Nat}
    {r : Request}
    {next : Response → Script Unit}
    (hu : u.check = .ok changes)
    (hname : c.name? = some settingsMap)
    (hversion : c.version? = some (stamp k))
    (hheld : revision s = k → view.configMap? s settingsMap = some c)
    (hsend : settle (changes.overwrite c) = send r next) :
    Stage.Answered view revision stamp u s (server.answer s r).2
      (settle (next (server.answer s r).1)) := by
  obtain ⟨rfl, hnext⟩ := (asks_overwrite changes hname).answered hsend
  rcases hnext (server.answer s (Request.putMap settingsMap (changes.applyToMap c))).1 with
    ⟨d, htake, hd⟩ | ⟨hnot, failure, hfail⟩
  · have hmet : Expectation.configMap.IsMet
        (server.answer s (Request.putMap settingsMap (changes.applyToMap c))).1 :=
      ⟨d, htake⟩
    have hchecked := h.checked hmet
    rw [changes.version?_applyToMap, hversion, Option.some.injEq] at hchecked
    have hcurrent := hheld (h.distinct hchecked).symm
    obtain ⟨version, hreplaced⟩ := h.replaced literal_settingsMap hmet
    rw [hd]
    refine .effective hu ?_ (Or.inl (h.advanced hmet))
    simp [data?, hreplaced, hcurrent]
  · rw [hfail, h.kept literal_settingsMap hnot]
    exact .quiet .failed (by simp)

/-- What a request takes an update to. -/
theorem Stage.answered
    {u : Update}
    {s : σ}
    {r : Request}
    {next : Response → Script Unit}
    (hx : Stage view revision stamp u s (send r next)) :
    Stage.Answered view revision stamp u s (server.answer s r).2
      (settle (next (server.answer s r).1)) := by
  generalize hsend : send r next = x at hx
  cases hx with
  | starting => exact answered_starting h hsend.symm
  | fetching hu => exact answered_fetching h hu hsend.symm
  | writing hu hname hversion hle hheld =>
      exact answered_writing h hu hname hversion hheld hsend.symm
  | succeeded => cases hsend
  | failed => cases hsend

end Answers

end Autoscaling
end ServingAdmin
