import Mathlib.Data.List.Forall2
import ServingAdmin.Proofs.Registry.Selection
import ServingAdmin.Proofs.Text.Octets

/-!
# The rows of registries

All objects are decoded before any row is made, in their order, so it is the first one that cannot
be decoded by which listing fails (`decodeAll_cases`).  The decoded secrets that the query covers
are then put into order and replaced by their rows one after the other.  The order is by namespace
and name only: secrets that agree in both stay as they are (`mergeSort_filter_identity`).  What
comes out is a block of rows for each secret (`Arrangement`).
-/

namespace ServingAdmin
namespace Registry

/-! ### Decoding -/

/-- What an object is reduced to. -/
def ReducesTo
    (s : Cluster.Secret)
    (reduced : Secret) :
    Prop :=
  ∃ config, DockerConfig.decode (Secret.payload s) = .ok config ∧
    reduced = Secret.ofConfig s config

/-- The failure of an object that cannot be decoded. -/
def undecodable
    (s : Cluster.Secret)
    (fault : Json.Fault) :
    Failure :=
  .because
    (.undecodableSecret ((s.metadata.getD {}).ns.getD "") ((s.metadata.getD {}).name.getD ""))
    (.of (.badJson fault))

theorem ofObject_of_fault
    {s : Cluster.Secret}
    {fault : Json.Fault}
    (h : DockerConfig.decode (Secret.payload s) = .error fault) :
    Secret.ofObject s = .error (undecodable s fault) := by
  simp only [Secret.ofObject, h, undecodable]

/-- Listing fails by an object: it cannot be decoded, and those before it can. -/
structure FailsBy
    (before : List Cluster.Secret)
    (s : Cluster.Secret)
    (failure : Failure) :
    Prop where
  before_decoded : ∀ p ∈ before, ∃ config, DockerConfig.decode (Secret.payload p) = .ok config
  failure_eq :
    ∃ fault, DockerConfig.decode (Secret.payload s) = .error fault ∧
      failure = undecodable s fault

/-- Either all objects are reduced, or decoding ends at one of them. -/
theorem decodeAll_cases
    (secrets : List Cluster.Secret) :
    (∃ decoded, decodeAll secrets = .ok decoded ∧ List.Forall₂ ReducesTo secrets decoded) ∨
      ∃ before s after failure, decodeAll secrets = .error failure ∧
        secrets = before ++ s :: after ∧ FailsBy before s failure := by
  induction secrets with
  | nil => exact Or.inl ⟨[], rfl, .nil⟩
  | cons s rest ih =>
      cases hs : DockerConfig.decode (Secret.payload s) with
      | error fault =>
          refine Or.inr ⟨[], s, rest, undecodable s fault, ?_, rfl, ⟨?_, fault, hs, rfl⟩⟩
          · rw [decodeAll, ofObject_of_fault hs]
          · simp
      | ok config =>
          have hobject := Secret.ofObject_of_decode hs
          rcases ih with ⟨decoded, hdecoded, hreduced⟩ | ⟨before, t, after, failure, hrest, hsplit,
            hfails⟩
          · refine Or.inl ⟨Secret.ofConfig s config :: decoded, ?_, ?_⟩
            · rw [decodeAll, hobject, hdecoded]
              rfl
            · exact .cons ⟨config, hs, rfl⟩ hreduced
          · refine Or.inr ⟨s :: before, t, after, failure, ?_, ?_, ?_⟩
            · rw [decodeAll, hobject, hrest]
              rfl
            · rw [hsplit, List.cons_append]
            · exact ⟨List.forall_mem_cons.mpr ⟨⟨config, hs⟩, hfails.before_decoded⟩,
                hfails.failure_eq⟩

theorem decodeAll_of_reduced
    {secrets : List Cluster.Secret}
    {decoded : List Secret}
    (h : List.Forall₂ ReducesTo secrets decoded) :
    decodeAll secrets = .ok decoded := by
  induction h with
  | nil => rfl
  | cons hhead _ ih =>
      obtain ⟨config, hconfig, rfl⟩ := hhead
      rw [decodeAll, Secret.ofObject_of_decode hconfig, ih]
      rfl

theorem decoded_of_reduced
    {secrets : List Cluster.Secret}
    {decoded : List Secret}
    (h : List.Forall₂ ReducesTo secrets decoded) :
    ∀ s ∈ secrets, ∃ config, DockerConfig.decode (Secret.payload s) = .ok config := by
  induction h with
  | nil => simp
  | cons hhead _ ih =>
      obtain ⟨config, hconfig, _⟩ := hhead
      exact List.forall_mem_cons.mpr ⟨⟨config, hconfig⟩, ih⟩

theorem FailsBy.not_decoded
    {before : List Cluster.Secret}
    {s : Cluster.Secret}
    {failure : Failure}
    (h : FailsBy before s failure) :
    ¬ ∃ config, DockerConfig.decode (Secret.payload s) = .ok config := by
  rintro ⟨config, hconfig⟩
  obtain ⟨fault, hfault, _⟩ := h.failure_eq
  rw [hconfig] at hfault
  cases hfault

/-! ### The order -/

/-- Secrets of one identity stay in their order. -/
theorem mergeSort_filter_identity
    (secrets : List Secret)
    (identity : String × String) :
    (secrets.mergeSort Secret.isBefore).filter (·.identity = identity) =
      secrets.filter (·.identity = identity) := by
  have hsorted : (secrets.filter (·.identity = identity)).Pairwise
      (fun a b => a.isBefore b = true) := by
    refine List.pairwise_of_forall_mem_list fun a ha b hb => ?_
    have ha' : a.identity = identity := by
      simpa using List.of_mem_filter ha
    have hb' : b.identity = identity := by
      simpa using List.of_mem_filter hb
    obtain ⟨hns, hname⟩ := Prod.mk.inj (ha'.trans hb'.symm)
    exact Secret.isBefore_iff.mpr (Or.inr ⟨hns, hname ▸ String.le_refl _⟩)
  -- what is sorted already is a part of what comes out, and there is as much of it
  have hpart := List.sublist_mergeSort Secret.isBefore_trans Secret.isBefore_total hsorted
    List.filter_sublist
  have hfiltered := hpart.filter (·.identity = identity)
  rw [List.filter_filter] at hfiltered
  simp only [Bool.and_self] at hfiltered
  have hlength := ((List.mergeSort_perm secrets Secret.isBefore).filter
    (·.identity = identity)).length_eq
  exact (hfiltered.eq_of_length hlength.symm).symm

/-- Rows by the octets of their namespaces and the names of their secrets. -/
def Row.isNotAfter
    (a b : Row) :
    Prop :=
  a.ns.toUTF8.toList < b.ns.toUTF8.toList ∨
    a.ns = b.ns ∧ a.secret.toUTF8.toList ≤ b.secret.toUTF8.toList

theorem Row.isNotAfter_iff
    {a b : Row} :
    a.isNotAfter b ↔ a.ns < b.ns ∨ a.ns = b.ns ∧ a.secret ≤ b.secret := by
  rw [isNotAfter, Text.utf8_lt_iff, Text.utf8_le_iff]

theorem Row.isNotAfter_of_secrets
    {s t : Secret}
    (h : s.isBefore t = true)
    {a b : Row}
    (ha : a ∈ s.rows)
    (hb : b ∈ t.rows) :
    a.isNotAfter b := by
  obtain ⟨e, _, rfl⟩ := List.mem_map.mp ha
  obtain ⟨f, _, rfl⟩ := List.mem_map.mp hb
  exact Row.isNotAfter_iff.mpr (Secret.isBefore_iff.mp h)

/-! ### Blocks of rows -/

/-- Rows are those of secrets: one block after the other, in an order of the secrets that keeps the
given one where namespace and name are the same. -/
structure Arrangement
    (covered arranged : List Secret)
    (rs : List Row) :
    Prop where
  perm : arranged.Perm covered
  stable : ∀ identity, arranged.filter (·.identity = identity) =
    covered.filter (·.identity = identity)
  rows_eq : rs = arranged.flatMap fun s => s.config.auths.entries.map fun e =>
    { ns := s.ns, account := s.account, secret := s.name,
      username := e.2.username, server := e.1, email := e.2.email }
  ordered : rs.Pairwise Row.isNotAfter
  servers_increasing : ∀ s ∈ arranged,
    s.config.auths.entries.Pairwise fun e f => e.1.toUTF8.toList < f.1.toUTF8.toList

theorem arrangement_selectedRows
    (decoded : List Secret)
    (q : Query) :
    Arrangement (decoded.filter q.covers) ((decoded.filter q.covers).mergeSort Secret.isBefore)
      (selectedRows decoded q) := by
  have hsorted := List.pairwise_mergeSort Secret.isBefore_trans Secret.isBefore_total
    (decoded.filter q.covers)
  refine ⟨List.mergeSort_perm _ _, mergeSort_filter_identity _, rfl, ?_, fun s _ => ?_⟩
  · refine List.pairwise_flatMap.mpr ⟨fun s _ => ?_, ?_⟩
    · refine List.pairwise_of_forall_mem_list fun a ha b hb => ?_
      have hrefl : s.isBefore s = true :=
        Secret.isBefore_iff.mpr (Or.inr ⟨rfl, String.le_refl _⟩)
      exact Row.isNotAfter_of_secrets hrefl ha hb
    · exact hsorted.imp fun h a ha b hb => Row.isNotAfter_of_secrets h ha hb
  · exact s.config.auths.increasing.imp fun h => (Text.utf8_lt_iff _ _).mpr h

/-- Objects are listed exactly if all of them can be decoded.  Listing fails by the first that
cannot, and its namespace and name are in the message.  Otherwise the rows are the blocks of rows of
those decoded secrets that the query covers. -/
theorem rows_exact
    (secrets : List Cluster.Secret)
    (q : Query) :
    ((∃ rs, rows secrets q = .ok rs) ↔
        ∀ s ∈ secrets, ∃ config, DockerConfig.decode (Secret.payload s) = .ok config) ∧
      (∀ failure, rows secrets q = .error failure →
        ∃ before s after, secrets = before ++ s :: after ∧ FailsBy before s failure ∧
          failure.problem.message = "failed to decode registry secret " ++
            (s.metadata.getD {}).ns.getD "" ++ "/" ++ (s.metadata.getD {}).name.getD "") ∧
      ∀ rs, rows secrets q = .ok rs →
        ∃ decoded arranged, List.Forall₂ ReducesTo secrets decoded ∧
          Arrangement (decoded.filter q.covers) arranged rs := by
  rcases decodeAll_cases secrets with ⟨decoded, hdecoded, hreduced⟩ | ⟨before, s, after, failure,
    hfailed, hsplit, hfails⟩
  · have hrows := rows_of_decodeAll hdecoded q
    refine ⟨iff_of_true ⟨_, hrows⟩ (decoded_of_reduced hreduced), fun failure h => ?_,
      fun rs h => ?_⟩
    · rw [hrows] at h
      cases h
    · rw [hrows] at h
      cases h
      exact ⟨decoded, _, hreduced, arrangement_selectedRows decoded q⟩
  · have hrows : rows secrets q = .error failure := by
      rw [rows, hfailed]
      rfl
    refine ⟨iff_of_false ?_ ?_, fun failure' h => ?_, fun rs h => ?_⟩
    · rintro ⟨rs, h⟩
      rw [hrows] at h
      cases h
    · intro h
      exact hfails.not_decoded (h s (hsplit ▸ by simp))
    · rw [hrows] at h
      cases h
      obtain ⟨fault, _, hfailure⟩ := hfails.failure_eq
      refine ⟨before, s, after, hsplit, hfails, ?_⟩
      rw [hfailure]
      rfl
    · rw [hrows] at h
      cases h

end Registry
end ServingAdmin
