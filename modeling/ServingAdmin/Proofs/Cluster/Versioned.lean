import ServingAdmin.Proofs.Cluster.Interface

/-!
# A cluster with versions

`Versioned` is a cluster that keeps the promises of `Interface`.  Each config map is kept
with the number of its revision.  It is given out under its name and the version of that
revision, a replacement is taken only if it carries both, and it is deleted at its own
path.  Everything else is answered as by a `Store`.
-/

namespace ServingAdmin
namespace Cluster

namespace Store

/-- An answer changes nothing unless it gives what a request that is more than a look asked for. -/
theorem answer_cases
    (s : Store)
    (r : Request) :
    (s.answer r).2 = s ∨ r.action ≠ .get ∧ (s.answer r).1.Succeeds := by
  obtain ⟨action, target⟩ := r
  unfold answer
  split
  · exact Or.inl rfl
  · split
    · rename_i route _
      cases route with
      | configMap name =>
          cases action with
          | get =>
              left
              simp only [answerAt]
              split <;> rfl
          | replace c => exact Or.inr ⟨nofun, trivial⟩
          | create claim => exact Or.inl rfl
          | delete => exact Or.inl rfl
      | namespaces => cases action <;> exact Or.inl rfl
      | secrets ns => cases action <;> exact Or.inl rfl
      | claims =>
          cases action with
          | get => exact Or.inl rfl
          | replace c => exact Or.inl rfl
          | create claim =>
              simp only [answerAt]
              split
              · exact Or.inl rfl
              · exact Or.inr ⟨nofun, trivial⟩
          | delete => exact Or.inl rfl
      | claim name =>
          cases action with
          | get => exact Or.inl rfl
          | replace c => exact Or.inl rfl
          | create claim => exact Or.inl rfl
          | delete =>
              simp only [answerAt]
              split
              · exact Or.inr ⟨nofun, trivial⟩
              · exact Or.inl rfl
    · exact Or.inl rfl

end Store

/-- The version of a revision. -/
def revisionStamp
    (revision : Nat) :
    String :=
  toString revision

theorem revisionStamp_injective :
    Function.Injective revisionStamp := by
  intro m n h
  have hdigits : Nat.toDigits 10 m = Nat.toDigits 10 n := String.ofList_injective h
  rw [← Nat.ofDigitChars_ten_toDigits (n := m), hdigits, Nat.ofDigitChars_ten_toDigits]

/-- A config map as it is given out under a name at a revision. -/
def ConfigMap.under
    (name : String)
    (revision : Nat)
    (c : ConfigMap) :
    ConfigMap :=
  { c with
    metadata := some { c.metadata.getD {} with
      name := some name, resourceVersion := some (revisionStamp revision) } }

/-- The objects of a cluster, with the revision of each config map. -/
structure Versioned where
  configMaps : KeyMap (ConfigMap × Nat)
  namespaces : List String
  secrets : List Secret
  claims : List Claim

namespace Versioned

/-- The config map of a name. -/
def configMap?
    (s : Versioned)
    (name : String) :
    Option ConfigMap :=
  (s.configMaps.get? name).map fun e => e.1.under name e.2

/-- The revision of a config map; it is zero while there is none. -/
def revision
    (name : String)
    (s : Versioned) :
    Nat :=
  ((s.configMaps.get? name).map Prod.snd).getD 0

/-- A config map kept at its next revision. -/
def put
    (s : Versioned)
    (name : String)
    (c : ConfigMap) :
    Versioned :=
  { s with configMaps := s.configMaps.insert name (c, s.revision name + 1) }

/-- The objects other than config maps, as a store. -/
def others
    (s : Versioned) :
    Store :=
  ⟨.empty, s.namespaces, s.secrets, s.claims, .empty⟩

/-- The name in the path of a config map. -/
def nameOf?
    (path : List Char) :
    Option String :=
  if (Route.configMap "").path.isPrefixOf path then
    some (String.ofList (path.drop (Route.configMap "").path.length))
  else none

/-- The refusal of a config map that does not carry its name and version. -/
def conflict
    (name : String) :
    Response :=
  .refused ⟨"Failure", Store.label "configmaps" name ++ " has been modified", "Conflict", 409⟩

/-- Answers a request for a config map. -/
def answerMap
    (s : Versioned)
    (name : String) :
    Action → Response × Versioned
  | .get =>
      match s.configMap? name with
      | some c => (.given (.configMap c), s)
      | none => (Store.missing (Store.label "configmaps" name), s)
  | .replace c =>
      match s.configMap? name with
      | some old =>
          if c.name? = some name ∧ c.version? = old.version? then
            (.given (.configMap c), s.put name c)
          else (conflict name, s)
      | none => (Store.missing (Store.label "configmaps" name), s)
  | .create _ => (Store.missing (Store.label "configmaps" name), s)
  | .delete =>
      match s.configMap? name with
      | some _ => (.given .removed, { s with configMaps := s.configMaps.erase name })
      | none => (Store.missing (Store.label "configmaps" name), s)

/-- Answers a request. -/
def answer
    (s : Versioned)
    (r : Request) :
    Response × Versioned :=
  match nameOf? r.target.path with
  | some name => s.answerMap name r.action
  | none =>
      ((s.others.answer r).1, { s with claims := (s.others.answer r).2.claims })

/-- The server that keeps objects with versions. -/
def server :
    Server Versioned :=
  ⟨answer⟩

/-- The objects that are kept, as they are given out. -/
def view :
    View Versioned where
  configMap? := configMap?
  namespaces := Versioned.namespaces
  secrets := Versioned.secrets
  claims := Versioned.claims

theorem nameOf?_path
    (name : String) :
    nameOf? (Route.configMap name).path = some name := by
  have happend :
      (Route.configMap name).path = (Route.configMap "").path ++ name.toList := by
    simp [Route.path, Route.segments]
  rw [nameOf?, happend, List.drop_left, if_pos]
  · rw [String.ofList_toList]
  · exact List.isPrefixOf_iff_prefix.mpr (List.prefix_append _ _)

/-- What a request for a config map is answered. -/
theorem answer_of_path
    {s : Versioned}
    {r : Request}
    {name : String}
    (hpath : r.target.path = (Route.configMap name).path) :
    s.answer r = s.answerMap name r.action := by
  rw [answer, hpath, nameOf?_path]

theorem version?_under
    (name : String)
    (revision : Nat)
    (c : ConfigMap) :
    (c.under name revision).version? = some (revisionStamp revision) := by
  rfl

@[simp] theorem name?_under
    (name : String)
    (revision : Nat)
    (c : ConfigMap) :
    (c.under name revision).name? = some name := by
  rfl

/-- To give out a config map that bears its name is to put it under a version. -/
theorem under_eq_withVersion
    {name : String}
    {c : ConfigMap}
    (hname : c.name? = some name)
    (revision : Nat) :
    c.under name revision = c.withVersion (some (revisionStamp revision)) := by
  obtain ⟨metadata, data, binaryData⟩ := c
  cases metadata with
  | none => cases hname
  | some m =>
      have hm : m.name = some name := hname
      simp [ConfigMap.under, ConfigMap.withVersion, ← hm]

theorem version?_of_configMap?
    {s : Versioned}
    {name : String}
    {c : ConfigMap}
    (h : s.configMap? name = some c) :
    c.version? = some (revisionStamp (s.revision name)) := by
  obtain ⟨e, he, rfl⟩ := Option.map_eq_some_iff.mp h
  simp [version?_under, revision, he]

theorem configMap?_put
    (s : Versioned)
    (name other : String)
    (c : ConfigMap) :
    (s.put name c).configMap? other =
      if name = other then some (c.under name (s.revision name + 1))
      else s.configMap? other := by
  by_cases h : name = other
  · subst h
    simp [configMap?, put]
  · simp [configMap?, put, h]

theorem revision_put
    (s : Versioned)
    (name : String)
    (c : ConfigMap) :
    (s.put name c).revision name = s.revision name + 1 := by
  simp [revision, put]

/-- A config map that is not replaced stays, and one that is replaced is put as it was sent, under
the name and version of the old one. -/
theorem answerMap_replace_cases
    (s : Versioned)
    (name : String)
    (c : ConfigMap) :
    ((s.answerMap name (.replace c)).2 = s ∧
        ¬ Expectation.configMap.IsMet (s.answerMap name (.replace c)).1) ∨
      ∃ old, s.configMap? name = some old ∧ c.name? = some name ∧ c.version? = old.version? ∧
        s.answerMap name (.replace c) = (.given (.configMap c), s.put name c) := by
  simp only [answerMap]
  split
  · rename_i old hold
    split
    · rename_i hc
      exact Or.inr ⟨old, hold, hc.1, hc.2, rfl⟩
    · refine Or.inl ⟨rfl, ?_⟩
      rintro ⟨_, h⟩
      cases h
  · refine Or.inl ⟨rfl, ?_⟩
    rintro ⟨_, h⟩
    cases h

/-! ### Routes other than config maps -/

theorem nameOf?_of_count
    {path : List Char}
    (h : path.count '/' < 6) :
    nameOf? path = none := by
  refine if_neg fun hprefix => ?_
  have hcount := (List.isPrefixOf_iff_prefix.mp hprefix).sublist.count_le '/'
  have hslashes : (Route.configMap "").path.count '/' = 6 := by
    decide
  omega

/-- A route of plain segments, and of fewer than a config map has, is found by its path, and a
request for it is answered as by a store. -/
theorem answer_of_route
    {s : Versioned}
    {r : Request}
    {route : Route}
    (hplain : ∀ segment ∈ route.segments, PlainSegment segment)
    (hshort : route.segments.length < 6)
    (hpath : r.target.path = route.path) :
    s.answer r =
      ((s.others.answerAt r route).1,
        { s with claims := (s.others.answerAt r route).2.claims }) := by
  have hname : nameOf? r.target.path = none := by
    refine nameOf?_of_count ?_
    rw [hpath, Route.count_path hplain]
    exact hshort
  have hroute : Route.ofPath? r.target.path = some route := by
    rw [hpath, Route.ofPath?_path hplain]
  have hanswer : s.others.answer r = s.others.answerAt r route := by
    have hfaults : s.others.faults.get? (Store.faultKey r) = none := rfl
    rw [Store.answer, hfaults, hroute]
  rw [answer, hname, hanswer]

/-- A claim is made if its name is free. -/
theorem answer_postClaim
    (claim : Claim)
    (s : Versioned) :
    s.answer (.postClaim claim) =
      if s.claims.any (·.name = claim.name) then (Store.claimed claim.name, s)
      else (.given (.claim claim), { s with claims := s.claims ++ [claim] }) := by
  have hroute := answer_of_route (s := s) (r := .postClaim claim) Route.plain_claims (by decide) rfl
  rw [hroute]
  by_cases hclaimed : s.others.claims.any (·.name = claim.name) = true
  · simp only [Store.answerAt, Request.postClaim, if_pos hclaimed]
    exact (if_pos hclaimed).symm
  · simp only [Store.answerAt, Request.postClaim, if_neg hclaimed]
    exact (if_neg hclaimed).symm

/-- The claim at a path is deleted if it is there. -/
theorem answer_of_deletesAt
    {r : Request}
    {name : String}
    (hr : r.DeletesAt name)
    (s : Versioned) :
    s.answer r =
      if s.claims.any (·.name = name) then
        (.given .removed, { s with claims := s.claims.filter (·.name ≠ name) })
      else (Store.missing (Store.label Claim.plural name), s) := by
  have hshort : (Route.claim name).segments.length < 6 := by
    simp [Route.segments]
  rw [answer_of_route (Route.plain_claim hr.literal.plain) hshort hr.path]
  by_cases hclaimed : s.others.claims.any (·.name = name) = true
  · simp only [Store.answerAt, hr.action, if_pos hclaimed]
    exact (if_pos hclaimed).symm
  · simp only [Store.answerAt, hr.action, if_neg hclaimed]
    exact (if_neg hclaimed).symm

/-! ### Promises -/

theorem changesOnSuccess :
    server.ChangesOnSuccess := by
  intro s r hchanged
  change (s.answer r).2 ≠ s at hchanged
  change r.action ≠ .get ∧ (s.answer r).1.Succeeds
  rw [answer] at hchanged ⊢
  split at hchanged
  · rename_i name _
    cases haction : r.action with
    | get =>
        rw [haction] at hchanged
        simp only [answerMap] at hchanged
        split at hchanged <;> exact absurd rfl hchanged
    | create claim =>
        rw [haction] at hchanged
        exact absurd rfl hchanged
    | replace c =>
        refine ⟨nofun, ?_⟩
        rw [haction] at hchanged
        rcases answerMap_replace_cases s name c with ⟨hsame, _⟩ | ⟨_, _, _, _, hput⟩
        · exact absurd hsame hchanged
        · rw [hput]
          trivial
    | delete =>
        refine ⟨nofun, ?_⟩
        rw [haction] at hchanged
        simp only [answerMap] at hchanged ⊢
        split
        · trivial
        · rename_i hnone
          rw [hnone] at hchanged
          exact absurd rfl hchanged
  · rcases Store.answer_cases s.others r with hsame | hsucceeds
    · rw [hsame] at hchanged
      exact absurd rfl hchanged
    · exact hsucceeds

theorem keepsObjects :
    server.KeepsObjects view where
  named {s name c} h := by
    obtain ⟨e, _, rfl⟩ := Option.map_eq_some_iff.mp h
    exact name?_under _ _ _
  untouched {s r} hr := by
    change (s.answer r).2 = s
    rw [answer, hr]
    split
    · simp only [answerMap]
      split <;> rfl
    · rcases Store.answer_cases s.others r with hsame | ⟨hnot, _⟩
      · rw [hsame]
        rfl
      · exact absurd hr hnot
  held {s name c} _ htake := by
    change Expectation.configMap.take (s.answer (.getMap name)).1 = _ at htake
    rw [answer_of_path rfl] at htake
    simp only [Request.getMap, answerMap] at htake
    split at htake
    · rename_i d hd
      cases htake
      exact hd
    · cases htake
  kept {s name c} _ hmet := by
    change ¬ Expectation.configMap.IsMet (s.answer (.putMap name c)).1 at hmet
    change (s.answer (.putMap name c)).2 = s
    rw [answer_of_path rfl] at hmet ⊢
    rcases answerMap_replace_cases s name c with ⟨hsame, _⟩ | ⟨_, _, _, _, hput⟩
    · exact hsame
    · exact absurd ⟨c, congrArg (Expectation.configMap.take ·.1) hput⟩ hmet
  replaced {s name c} _ hmet := by
    change Expectation.configMap.IsMet (s.answer (.putMap name c)).1 at hmet
    change ∃ version, (s.answer (.putMap name c)).2.configMap? name = _
    rw [answer_of_path rfl] at hmet ⊢
    rcases answerMap_replace_cases s name c with ⟨_, hnot⟩ | ⟨_, _, hname, _, hput⟩
    · exact absurd hmet hnot
    · refine ⟨some (revisionStamp (s.revision name + 1)), ?_⟩
      rw [Request.putMap, hput, configMap?_put, if_pos rfl, under_eq_withVersion hname]
  othersKept {s name c} _ := by
    change view.AgreeExceptMap name s (s.answer (.putMap name c)).2
    rw [answer_of_path rfl]
    rcases answerMap_replace_cases s name c with ⟨hsame, _⟩ | ⟨_, _, _, _, hput⟩
    · rw [Request.putMap, hsame]
      exact View.AgreeExceptMap.refl view name s
    · rw [Request.putMap, hput]
      refine ⟨fun other hother => ?_, rfl, rfl, rfl⟩
      exact (configMap?_put s name other c).trans (if_neg hother.symm)

theorem servesObjects :
    server.ServesObjects view where
  toKeepsObjects := keepsObjects
  given {s name c} _ h := by
    change Expectation.configMap.take (s.answer (.getMap name)).1 = _
    have hc : s.configMap? name = some c := h
    rw [answer_of_path rfl]
    simp only [Request.getMap, answerMap, hc]
    rfl
  accepted {s name c old} _ hname hold hversion := by
    change Expectation.configMap.IsMet (s.answer (.putMap name c)).1
    have hheld : s.configMap? name = some old := hold
    rw [answer_of_path rfl]
    simp only [Request.putMap, answerMap, hheld, hname, hversion, and_self, if_true]
    exact ⟨c, rfl⟩

theorem countsRevisions
    (name : String) :
    server.CountsRevisions view name (revision name) revisionStamp where
  toKeepsObjects := keepsObjects
  distinct := revisionStamp_injective
  stamped := version?_of_configMap?
  checked {s c} hmet := by
    change Expectation.configMap.IsMet (s.answer (.putMap name c)).1 at hmet
    rw [answer_of_path rfl] at hmet
    rcases answerMap_replace_cases s name c with ⟨_, hnot⟩ | ⟨old, hold, _, hversion, _⟩
    · exact absurd hmet hnot
    · rw [hversion]
      exact version?_of_configMap? hold
  advanced {s c} hmet := by
    change Expectation.configMap.IsMet (s.answer (.putMap name c)).1 at hmet
    change s.revision name < (s.answer (.putMap name c)).2.revision name
    rw [answer_of_path rfl] at hmet ⊢
    rcases answerMap_replace_cases s name c with ⟨_, hnot⟩ | ⟨_, _, _, _, hput⟩
    · exact absurd hmet hnot
    · rw [Request.putMap, hput]
      simp [revision_put]

theorem makesClaims :
    server.MakesClaims view where
  toKeepsObjects := keepsObjects
  notMade {s claim} hmet := by
    change ¬ Expectation.claim.IsMet (s.answer (.postClaim claim)).1 at hmet
    change (s.answer (.postClaim claim)).2 = s
    rw [answer_postClaim] at hmet ⊢
    split at hmet
    · rename_i hclaimed
      rw [if_pos hclaimed]
    · exact absurd ⟨(), rfl⟩ hmet
  created {s claim} := by
    change view.AgreeExceptClaims s (s.answer (.postClaim claim)).2
    rw [answer_postClaim]
    split
    · exact View.AgreeExceptClaims.refl view s
    · exact ⟨fun _ => rfl, rfl, rfl⟩

theorem confinesDeletions :
    server.ConfinesDeletions view where
  toMakesClaims := makesClaims
  notDeleted {s r name} hr hmet := by
    change ¬ Expectation.removal.IsMet (s.answer r).1 at hmet
    change (s.answer r).2 = s
    rw [answer_of_deletesAt hr] at hmet ⊢
    split at hmet
    · exact absurd ⟨(), rfl⟩ hmet
    · rename_i hfree
      rw [if_neg hfree]
  deleted {s r name} hr := by
    change view.AgreeExceptClaims s (s.answer r).2
    rw [answer_of_deletesAt hr]
    split
    · exact ⟨fun _ => rfl, rfl, rfl⟩
    · exact View.AgreeExceptClaims.refl view s

end Versioned
end Cluster
end ServingAdmin
