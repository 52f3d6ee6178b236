import Mathlib.Data.List.Forall2
import ServingAdmin.Proofs.KeyMap
import ServingAdmin.Proofs.Registry.Selection
import ServingAdmin.Table.Sink

/-!
# Passwords in the list of registries

Nothing that is shown of a registry depends on a password.  What is listed and what is written of
docker configurations is the same after their passwords are taken out, so secrets that differ only
in their passwords cannot be told apart by any output (`output_passwordIndependent`).
-/

namespace ServingAdmin
namespace Registry

/-! ### What is left without the passwords -/

/-- What may be shown of credentials. -/
def Credentials.shown
    (c : Credentials) :
    String × String :=
  (c.username, c.email)

/-- The credentials with an empty password. -/
def Credentials.withoutPassword
    (c : Credentials) :
    Credentials :=
  { c with password := "" }

/-- The configuration with empty passwords. -/
def DockerConfig.withoutPasswords
    (c : DockerConfig) :
    DockerConfig :=
  ⟨c.auths.mapValues Credentials.withoutPassword⟩

/-- The secret with empty passwords. -/
def Secret.withoutPasswords
    (s : Secret) :
    Secret :=
  { s with config := s.config.withoutPasswords }

/-- Configurations that differ at most in passwords: they are for the same servers, and have for
each the same username and the same email. -/
def DockerConfig.AgreeExceptPasswords
    (c c' : DockerConfig) :
    Prop :=
  ∀ server, (c.auths.get? server).map Credentials.shown =
    (c'.auths.get? server).map Credentials.shown

theorem Credentials.withoutPassword_eq_iff
    {a b : Credentials} :
    a.withoutPassword = b.withoutPassword ↔ a.shown = b.shown := by
  simp [withoutPassword, shown]

/-- Configurations that differ at most in passwords are one without them. -/
theorem DockerConfig.AgreeExceptPasswords.withoutPasswords_eq
    {c c' : DockerConfig}
    (h : c.AgreeExceptPasswords c') :
    c.withoutPasswords = c'.withoutPasswords := by
  refine congrArg DockerConfig.mk (KeyMap.ext_get? fun server => ?_)
  have hserver := h server
  rw [KeyMap.get?_mapValues, KeyMap.get?_mapValues]
  cases hc : c.auths.get? server with
  | none =>
      cases hc' : c'.auths.get? server with
      | none => rfl
      | some b => simp [hc, hc'] at hserver
  | some a =>
      cases hc' : c'.auths.get? server with
      | none => simp [hc, hc'] at hserver
      | some b =>
          have hab : a.shown = b.shown := by
            simpa [hc, hc'] using hserver
          exact congrArg some (Credentials.withoutPassword_eq_iff.mpr hab)

/-! ### What is shown -/

theorem DockerConfig.write_withoutPasswords
    (c : DockerConfig) :
    c.withoutPasswords.write = c.write := by
  simp only [write, withoutPasswords, KeyMap.mapValues, List.map_map]
  rfl

theorem Secret.rows_withoutPasswords
    (s : Secret) :
    s.withoutPasswords.rows = s.rows := by
  simp only [rows, withoutPasswords, DockerConfig.withoutPasswords, KeyMap.mapValues, List.map_map]
  rfl

theorem selectedRows_withoutPasswords
    (secrets : List Secret)
    (q : Query) :
    selectedRows (secrets.map Secret.withoutPasswords) q = selectedRows secrets q := by
  have hcovers : q.covers ∘ Secret.withoutPasswords = q.covers := rfl
  have hsort := List.map_mergeSort (f := Secret.withoutPasswords) (r := Secret.isBefore)
    (s := Secret.isBefore) (l := secrets.filter q.covers) fun _ _ _ _ => rfl
  rw [selectedRows, List.filter_map, hcovers, ← hsort, List.flatMap_map]
  simp only [Secret.rows_withoutPasswords, selectedRows]

/-! ### Objects -/

/-- Objects with the same metadata whose docker configurations can be decoded and differ at most in
passwords. -/
structure AgreeExceptPasswords
    (s s' : Cluster.Secret) :
    Prop where
  metadata : s.metadata = s'.metadata
  configs :
    ∃ c c', DockerConfig.decode (Secret.payload s) = .ok c ∧
      DockerConfig.decode (Secret.payload s') = .ok c' ∧ c.AgreeExceptPasswords c'

theorem AgreeExceptPasswords.ofObject
    {s s' : Cluster.Secret}
    (h : AgreeExceptPasswords s s') :
    ∃ r r', Secret.ofObject s = .ok r ∧ Secret.ofObject s' = .ok r' ∧
      r.withoutPasswords = r'.withoutPasswords := by
  obtain ⟨c, c', hc, hc', hagree⟩ := h.configs
  refine ⟨_, _, Secret.ofObject_of_decode hc, Secret.ofObject_of_decode hc', ?_⟩
  simp only [Secret.withoutPasswords, Secret.ofConfig, h.metadata, hagree.withoutPasswords_eq]

theorem decodeAll_of_agree
    {secrets secrets' : List Cluster.Secret}
    (h : List.Forall₂ AgreeExceptPasswords secrets secrets') :
    ∃ rs rs', decodeAll secrets = .ok rs ∧ decodeAll secrets' = .ok rs' ∧
      rs.map Secret.withoutPasswords = rs'.map Secret.withoutPasswords := by
  induction h with
  | nil => exact ⟨[], [], rfl, rfl, rfl⟩
  | cons hhead _ ih =>
      obtain ⟨r, r', hr, hr', hshown⟩ := hhead.ofObject
      obtain ⟨rs, rs', hrs, hrs', hrest⟩ := ih
      refine ⟨r :: rs, r' :: rs', ?_, ?_, ?_⟩
      · rw [decodeAll, hr, hrs]
        rfl
      · rw [decodeAll, hr', hrs']
        rfl
      · rw [List.map_cons, List.map_cons, hshown, hrest]

/-- Objects that differ at most in passwords are listed by the same rows. -/
theorem rows_of_agree
    {secrets secrets' : List Cluster.Secret}
    (h : List.Forall₂ AgreeExceptPasswords secrets secrets')
    (q : Query) :
    ∃ rs, rows secrets q = .ok rs ∧ rows secrets' q = .ok rs := by
  obtain ⟨decoded, decoded', hd, hd', hshown⟩ := decodeAll_of_agree h
  refine ⟨_, rows_of_decodeAll hd q, ?_⟩
  rw [rows_of_decodeAll hd' q, ← selectedRows_withoutPasswords decoded, hshown,
    selectedRows_withoutPasswords]

theorem encode_of_agree
    {s s' : Cluster.Secret}
    (h : AgreeExceptPasswords s s') :
    ∃ c c', DockerConfig.decode (Secret.payload s) = .ok c ∧
      DockerConfig.decode (Secret.payload s') = .ok c' ∧ c.encode = c'.encode := by
  obtain ⟨c, c', hc, hc', hagree⟩ := h.configs
  refine ⟨c, c', hc, hc', congrArg String.ofList ?_⟩
  rw [← c.write_withoutPasswords, hagree.withoutPasswords_eq, c'.write_withoutPasswords]

/-- Passwords have no influence on any output.  Of two lists of objects that differ at most in
passwords, every query selects the same rows, every listing is printed alike into every sink, with
the same result, and the decoded configurations are encoded alike. -/
theorem output_passwordIndependent
    {secrets secrets' : List Cluster.Secret}
    (h : List.Forall₂ AgreeExceptPasswords secrets secrets') :
    (∀ q, ∃ rs, rows secrets q = .ok rs ∧ rows secrets' q = .ok rs) ∧
      (∀ q noHeaders sink, Table.printTo (listing secrets q noHeaders) sink =
        Table.printTo (listing secrets' q noHeaders) sink) ∧
      List.Forall₂ (fun s s' => ∃ c c', DockerConfig.decode (Secret.payload s) = .ok c ∧
        DockerConfig.decode (Secret.payload s') = .ok c' ∧ c.encode = c'.encode)
        secrets secrets' := by
  refine ⟨rows_of_agree h, fun q noHeaders sink => ?_, h.imp fun _ _ => encode_of_agree⟩
  obtain ⟨rs, hrs, hrs'⟩ := rows_of_agree h q
  rw [listing, listing, hrs, hrs']

/-- A pull secret with a docker configuration. -/
def pullSecret
    (config : String) :
    Cluster.Secret :=
  ⟨some { ns := some "apps", name := some "pull" },
    some (KeyMap.empty.insert configKey config.toUTF8.toList)⟩

/-- Credentials by the names of their fields. -/
def namedSecret : Cluster.Secret :=
  pullSecret
    ("\x7b\"auths\":\x7b\"r.io\":\x7b\"password\":\"one\"," ++
      "\"email\":\"e\",\"username\":\"u\"\x7d\x7d\x7d")

/-- The same credentials but for the password, by the places of their fields. -/
def placedSecret : Cluster.Secret :=
  pullSecret "\x7b\"auths\":\x7b\"r.io\":[\"u\",\"an\\nother\",\"e\"]\x7d\x7d"

/-- The two forms of credentials are printed alike, whatever their passwords. -/
theorem output_passwordIndependent_twoForms :
    List.Forall₂ AgreeExceptPasswords [namedSecret] [placedSecret] ∧
      Table.printTo (listing [namedSecret] ⟨none, none⟩ false) (.ofCapacity none) =
        Table.printTo (listing [placedSecret] ⟨none, none⟩ false) (.ofCapacity none) := by
  have hnamed : DockerConfig.decode (Secret.payload namedSecret) =
      .ok ⟨KeyMap.empty.insert "r.io" ⟨"u", "one", "e"⟩⟩ := by
    decide +kernel
  have hplaced : DockerConfig.decode (Secret.payload placedSecret) =
      .ok ⟨KeyMap.empty.insert "r.io" ⟨"u", "an\nother", "e"⟩⟩ := by
    decide +kernel
  have hagree : DockerConfig.AgreeExceptPasswords
      ⟨KeyMap.empty.insert "r.io" ⟨"u", "one", "e"⟩⟩
      ⟨KeyMap.empty.insert "r.io" ⟨"u", "an\nother", "e"⟩⟩ := by
    intro server
    by_cases hserver : "r.io" = server <;> simp [hserver, Credentials.shown]
  have hsecrets : List.Forall₂ AgreeExceptPasswords [namedSecret] [placedSecret] :=
    .cons ⟨rfl, _, _, hnamed, hplaced, hagree⟩ .nil
  exact ⟨hsecrets, (output_passwordIndependent hsecrets).2.1 _ _ _⟩

end Registry
end ServingAdmin
