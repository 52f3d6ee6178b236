import Mathlib.Data.List.Nodup
import ServingAdmin.Registry.Listing

/-!
# The rows that a query selects

The rows of a query come from the decoded secrets in three steps: the secrets that the query covers
are taken, put into order by namespace and name, and replaced by their rows (`selectedRows`).

Secrets of different namespaces or names have one order only, so what is selected does not depend
on the order in which they come.
-/

namespace ServingAdmin
namespace Registry

/-- What is listed of an object whose docker configuration has been decoded. -/
def Secret.ofConfig
    (s : Cluster.Secret)
    (config : DockerConfig) :
    Secret :=
  ⟨(s.metadata.getD {}).ns.getD "", (s.metadata.getD {}).name.getD "",
    ((s.metadata.getD {}).labels.bind (·.get? accountLabel)).getD "", config⟩

theorem Secret.ofObject_of_decode
    {s : Cluster.Secret}
    {config : DockerConfig}
    (h : DockerConfig.decode (payload s) = .ok config) :
    ofObject s = .ok (ofConfig s config) := by
  simp only [ofObject, h]
  rfl

/-- The rows that a query selects of decoded secrets. -/
def selectedRows
    (secrets : List Secret)
    (q : Query) :
    List Row :=
  ((secrets.filter q.covers).mergeSort Secret.isBefore).flatMap Secret.rows

theorem rows_of_decodeAll
    {secrets : List Cluster.Secret}
    {decoded : List Secret}
    (h : decodeAll secrets = .ok decoded)
    (q : Query) :
    rows secrets q = .ok (selectedRows decoded q) := by
  rw [rows, h]
  rfl

/-! ### The order -/

/-- What a secret is told from others by. -/
def Secret.identity
    (s : Secret) :
    String × String :=
  (s.ns, s.name)

namespace Secret

theorem isBefore_iff
    {a b : Secret} :
    a.isBefore b = true ↔ a.ns < b.ns ∨ a.ns = b.ns ∧ a.name ≤ b.name := by
  simp [isBefore]

theorem isBefore_trans
    (a b c : Secret)
    (hab : a.isBefore b = true)
    (hbc : b.isBefore c = true) :
    a.isBefore c = true := by
  rw [isBefore_iff] at hab hbc ⊢
  rcases hab with hab | ⟨habns, habname⟩
  · rcases hbc with hbc | ⟨hbcns, _⟩
    · exact Or.inl (String.lt_trans hab hbc)
    · exact Or.inl (hbcns ▸ hab)
  · rcases hbc with hbc | ⟨hbcns, hbcname⟩
    · exact Or.inl (habns ▸ hbc)
    · exact Or.inr ⟨habns.trans hbcns, String.le_trans habname hbcname⟩

theorem isBefore_total
    (a b : Secret) :
    (a.isBefore b || b.isBefore a) = true := by
  rw [Bool.or_eq_true, isBefore_iff, isBefore_iff]
  by_cases hns : a.ns = b.ns
  · rcases String.le_total a.name b.name with hname | hname
    · exact Or.inl (Or.inr ⟨hns, hname⟩)
    · exact Or.inr (Or.inr ⟨hns.symm, hname⟩)
  · by_cases hlt : a.ns < b.ns
    · exact Or.inl (Or.inl hlt)
    · exact Or.inr (Or.inl (KeyMap.lt_of_not_lt_of_ne hlt (Ne.symm hns)))

/-- Only secrets of one identity come each before the other. -/
theorem identity_eq_of_isBefore
    {a b : Secret}
    (hab : a.isBefore b = true)
    (hba : b.isBefore a = true) :
    a.identity = b.identity := by
  rw [isBefore_iff] at hab hba
  rcases hab with hab | ⟨habns, habname⟩
  · rcases hba with hba | ⟨hbans, _⟩
    · exact absurd hba (String.lt_asymm hab)
    · exact absurd (hbans ▸ hab) (String.lt_irrefl _)
  · rcases hba with hba | ⟨_, hbaname⟩
    · exact absurd (habns ▸ hba) (String.lt_irrefl _)
    · exact Prod.ext habns (String.le_antisymm habname hbaname)

end Secret

/-- Secrets of different identities have one order only. -/
theorem mergeSort_congr
    {secrets secrets' : List Secret}
    (hperm : secrets.Perm secrets')
    (hdistinct : (secrets.map Secret.identity).Nodup) :
    secrets.mergeSort Secret.isBefore = secrets'.mergeSort Secret.isBefore := by
  have hsorted := List.pairwise_mergeSort Secret.isBefore_trans Secret.isBefore_total
  have hleft := List.mergeSort_perm secrets Secret.isBefore
  have hright := List.mergeSort_perm secrets' Secret.isBefore
  refine List.Perm.eq_of_pairwise ?_ (hsorted secrets) (hsorted secrets')
    (hleft.trans (hperm.trans hright.symm))
  intro a b ha hb hab hba
  exact List.inj_on_of_nodup_map hdistinct (hleft.mem_iff.mp ha)
    (hperm.mem_iff.mpr (hright.mem_iff.mp hb)) (Secret.identity_eq_of_isBefore hab hba)

/-- What is selected of secrets of different identities does not depend on their order. -/
theorem selectedRows_congr
    {secrets secrets' : List Secret}
    (hperm : secrets.Perm secrets')
    (hdistinct : (secrets.map Secret.identity).Nodup)
    (q : Query) :
    selectedRows secrets q = selectedRows secrets' q := by
  have hfiltered : ((secrets.filter q.covers).map Secret.identity).Nodup :=
    hdistinct.sublist (List.filter_sublist.map _)
  rw [selectedRows, selectedRows, mergeSort_congr (hperm.filter _) hfiltered]

/-- The rows are those of the secrets that the query covers. -/
theorem selectedRows_perm
    (secrets : List Secret)
    (q : Query) :
    (selectedRows secrets q).Perm ((secrets.filter q.covers).flatMap Secret.rows) :=
  (List.mergeSort_perm _ _).flatMap_right _

end Registry
end ServingAdmin
