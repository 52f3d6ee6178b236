import ServingAdmin.Listed
import ServingAdmin.Proofs.Registry.Rows
import ServingAdmin.Proofs.Table.Printing

/-!
# Lists in a sink of some capacity

Settings that cannot be read and secrets that cannot be decoded keep a list from being built
(`Listed.Unbuildable`), and a claim without a name ends its printing (`Listed.Nameless`).  In both
cases nothing is put into the sink.  Every other list has a table, and what the sink has in the end
is the whole text of the table, or as many of its first octets as there is room for
(`printed_upToCapacity`).
-/

namespace ServingAdmin

/-- The rows of claims are there exactly if all of the claims have a name. -/
theorem Claim.rows_cases
    (claims : List Cluster.ListedClaim) :
    ((∃ c ∈ claims, c.name = none) ∧ rows claims = none) ∨
      (¬ ∃ c ∈ claims, c.name = none) ∧ ∃ rs, rows claims = some rs := by
  induction claims with
  | nil => exact Or.inr ⟨by simp, [], rfl⟩
  | cons c rest ih =>
      rw [rows, List.mapM_cons]
      cases hname : c.name with
      | none => exact Or.inl ⟨⟨c, List.mem_cons_self, hname⟩, rfl⟩
      | some name =>
          rcases ih with ⟨⟨d, hd, hnone⟩, hrest⟩ | ⟨hnamed, rs, hrest⟩
          · rw [rows] at hrest
            exact Or.inl ⟨⟨d, List.mem_cons_of_mem c hd, hnone⟩, by simp [hrest]⟩
          · rw [rows] at hrest
            refine Or.inr ⟨?_, (name, c.ns) :: rs, by simp [hrest]⟩
            simpa [hname] using hnamed

namespace Listed

/-- The rows of a list cannot be built: a setting cannot be read, or a secret cannot be decoded and
all before it can. -/
inductive Unbuildable : Listed → Failure → Prop
  | settings
      {data : KeyMap String}
      {failure : Failure}
      (h : Autoscaling.Settings.read data = .error failure) :
      Unbuildable (.settings data) failure
  | registries
      {before after : List Cluster.Secret}
      {s : Cluster.Secret}
      {q : Registry.Query}
      {failure : Failure}
      (h : Registry.FailsBy before s failure) :
      Unbuildable (.registries (before ++ s :: after) q) failure

/-- A list of claims one of which has no name. -/
inductive Nameless : Listed → Prop
  | claims
      {all : List Cluster.ListedClaim}
      {c : Cluster.ListedClaim}
      (hc : c ∈ all)
      (h : c.name = none) :
      Nameless (.claims all)

/-- What the table of a list comes to: a failure, nothing where a claim has no name, or a table. -/
inductive TableCase (noHeaders : Bool) (l : Listed) : Prop
  | unbuildable
      {failure : Failure}
      (h : l.Unbuildable failure)
      (htable : l.table noHeaders = some (.error failure))
  | nameless
      (h : l.Nameless)
      (htable : l.table noHeaders = none)
  | built
      (hbuildable : ¬ ∃ failure, l.Unbuildable failure)
      (hnamed : ¬ l.Nameless)
      (htable : ∃ t, l.table noHeaders = some (.ok t))

theorem tableCase_settings
    (data : KeyMap String)
    (noHeaders : Bool) :
    (settings data).TableCase noHeaders := by
  have hnamed : ¬ (settings data).Nameless := by
    rintro ⟨⟩
  cases hread : Autoscaling.Settings.read data with
  | error failure =>
      refine .unbuildable (.settings hread) ?_
      rw [table, Autoscaling.listing, hread]
      rfl
  | ok s =>
      refine .built ?_ hnamed ?_
      · rintro ⟨failure, h⟩
        cases h with
        | settings h => cases hread.symm.trans h
      · rw [table, Autoscaling.listing, hread]
        exact ⟨_, rfl⟩

theorem tableCase_domains
    (data : KeyMap String)
    (noHeaders : Bool) :
    (domains data).TableCase noHeaders := by
  refine .built ?_ ?_ ⟨_, rfl⟩
  · rintro ⟨failure, ⟨⟩⟩
  · rintro ⟨⟩

theorem tableCase_claims
    (all : List Cluster.ListedClaim)
    (noHeaders : Bool) :
    (claims all).TableCase noHeaders := by
  rcases Claim.rows_cases all with ⟨⟨c, hc, hnone⟩, hrows⟩ | ⟨hnamed, rs, hrows⟩
  · refine .nameless (.claims hc hnone) ?_
    rw [table, Claim.listing, hrows]
    rfl
  · refine .built ?_ ?_ ?_
    · rintro ⟨failure, ⟨⟩⟩
    · intro h
      cases h with
      | claims hc hnone => exact hnamed ⟨_, hc, hnone⟩
    · rw [table, Claim.listing, hrows]
      exact ⟨_, rfl⟩

theorem tableCase_registries
    (secrets : List Cluster.Secret)
    (q : Registry.Query)
    (noHeaders : Bool) :
    (registries secrets q).TableCase noHeaders := by
  have hnamed : ¬ (registries secrets q).Nameless := by
    rintro ⟨⟩
  rcases Registry.decodeAll_cases secrets with ⟨decoded, hdecoded, hreduced⟩ |
    ⟨before, s, after, failure, hfailed, rfl, hfails⟩
  · refine .built ?_ hnamed ?_
    · rintro ⟨failure, h⟩
      cases h with
      | registries hfails =>
          exact hfails.not_decoded (Registry.decoded_of_reduced hreduced _ (by simp))
    · rw [table, Registry.listing, Registry.rows, hdecoded]
      exact ⟨_, rfl⟩
  · refine .unbuildable (.registries hfails) ?_
    rw [table, Registry.listing, Registry.rows, hfailed]
    rfl

/-- A list has a table exactly if its rows can be built and no claim in it lacks a name. -/
theorem tableCase
    (l : Listed)
    (noHeaders : Bool) :
    l.TableCase noHeaders := by
  cases l with
  | settings data => exact tableCase_settings data noHeaders
  | domains data => exact tableCase_domains data noHeaders
  | claims all => exact tableCase_claims all noHeaders
  | registries secrets q => exact tableCase_registries secrets q noHeaders

end Listed

/-- Of a list whose rows cannot be built nothing is put into any sink, and the failure is returned.
Of claims one of which has no name nothing is put into any sink either, and the tool ends without a
word.  Any other list has a table, the text of which a sink without a limit takes whole.  A sink
with a limit takes it whole if it fits, and otherwise as many of its first octets as there is room
for, and then reports that it is full. -/
theorem printed_upToCapacity
    (l : Listed)
    (noHeaders : Bool) :
    (∃ failure, l.Unbuildable failure ∧
        ∀ capacity,
          l.printTo noHeaders (.ofCapacity capacity) = (⟨capacity, []⟩, .failed failure)) ∨
      (l.Nameless ∧
        ∀ capacity, l.printTo noHeaders (.ofCapacity capacity) = (⟨capacity, []⟩, .aborted)) ∨
      ((¬ ∃ failure, l.Unbuildable failure) ∧ ¬ l.Nameless) ∧
        ∃ t, l.table noHeaders = some (.ok t) ∧
          l.printTo noHeaders (.ofCapacity none) = (⟨none, t.text.toUTF8.toList⟩, .done ()) ∧
          ∀ n, l.printTo noHeaders (.ofCapacity (some n)) =
            if t.text.toUTF8.toList.length ≤ n then (⟨some n, t.text.toUTF8.toList⟩, .done ())
            else (⟨some n, t.text.toUTF8.toList.take n⟩, .failed (.of .outputFull)) := by
  cases l.tableCase noHeaders with
  | @unbuildable failure h htable =>
      refine Or.inl ⟨failure, h, fun capacity => ?_⟩
      rw [Listed.printTo, htable]
      rfl
  | nameless h htable =>
      refine Or.inr (Or.inl ⟨h, fun capacity => ?_⟩)
      simp only [Listed.printTo, htable]
      rfl
  | built hbuildable hnamed htable =>
      obtain ⟨t, htable⟩ := htable
      refine Or.inr (Or.inr ⟨⟨hbuildable, hnamed⟩, t, htable, ?_, fun n => ?_⟩)
      · simp only [Listed.printTo, htable, Table.printTo_unlimited]
      · simp only [Listed.printTo, htable, Table.printTo_limited]
        by_cases hfits : t.text.toUTF8.toList.length ≤ n
        · simp only [if_pos hfits]
        · simp only [if_neg hfits]

/-- The domain whose selector names a street. -/
def streetDomain : Listed :=
  .domains (KeyMap.empty.insert "a.io" "selector:\n a: Stra\u00DFe")

/-- A sink that is full behind the first octet of a character has been given all octets up to that
one. -/
theorem printed_upToCapacity_cutCharacter :
    streetDomain.printTo true (.ofCapacity none) =
        (⟨none, "a.io   a=Stra\u00DFe\n".toUTF8.toList⟩, .done ()) ∧
      streetDomain.printTo true (.ofCapacity (some 14)) =
        (⟨some 14, "a.io   a=Stra".toUTF8.toList ++ [0xC3]⟩, .failed (.of .outputFull)) := by
  have htext : streetDomain.table true =
      some (.ok { Table.ofHeaders ["Custom-Domain", "Selector"] with
        rows := [["a.io", "a=Stra\u00DFe"]], noHeaders := true }) := by
    decide +kernel
  rcases printed_upToCapacity streetDomain true with ⟨_, h, _⟩ | ⟨h, _⟩ | ⟨_, t, ht, hall, hcut⟩
  · cases h
  · cases h
  · cases htext.symm.trans ht
    refine ⟨hall.trans ?_, (hcut 14).trans ?_⟩ <;> decide +kernel

/-- The printing of a claim without a name neither fails nor ends well, and leaves nothing. -/
theorem printed_namelessClaim :
    (¬ ∃ failure, (Listed.claims [⟨none, "default"⟩]).Unbuildable failure) ∧
      ∀ capacity, (Listed.claims [⟨none, "default"⟩]).printTo false (.ofCapacity capacity) =
        (⟨capacity, []⟩, .aborted) := by
  refine ⟨?_, fun capacity => rfl⟩
  rintro ⟨failure, h⟩
  cases h

end ServingAdmin
