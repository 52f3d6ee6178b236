import ServingAdmin.Proofs.Json.WrittenValues
import ServingAdmin.Proofs.Registry.Passwords

/-!
# Encoded docker configurations are decoded

What is written of a docker configuration is read back, whatever texts its servers, usernames,
passwords and emails are.  Only the passwords are not written, and a member that is missing counts
as empty, so the configuration comes back with empty passwords (`decode_encode`).  That is all that
gets lost: configurations with one encoding differ at most in their passwords.
-/

namespace ServingAdmin
namespace Registry

open Json
open Text (octets)

/-! ### Credentials -/

namespace Credentials

theorem local_fields :
    ∀ f ∈ fields, ∀ st, (f.read st).Local := by
  simp only [fields, List.forall_mem_cons, List.not_mem_nil, false_implies, implies_true, and_true]
  exact ⟨fun _ => local_text.map _, fun _ => local_text.map _, fun _ => local_text.map _⟩

theorem local_reader :
    reader.Local :=
  (Reader.Local.record local_fields _).map _

theorem isValue_members
    (c : Credentials) :
    ∀ m ∈ [("username", Writer.string c.username), ("email", Writer.string c.email)],
      IsValue (octets m.2) := by
  simp only [List.forall_mem_cons, List.not_mem_nil, false_implies, implies_true, and_true]
  exact ⟨isValue_string c.username, isValue_string c.email⟩

theorem isValue_write
    (c : Credentials) :
    IsValue (octets c.write) :=
  isValue_object c.isValue_members

/-- Of what is written of credentials the username and the email are read. -/
theorem takes_write
    (c : Credentials) :
    Takes reader (octets c.write) c.withoutPassword := by
  have hmembers : TakesMembers (Reader.onField fields) ⟨none, none, none⟩
      ([("username", Writer.string c.username), ("email", Writer.string c.email)].map writtenMember)
      ⟨some c.username, none, some c.email⟩ :=
    .cons ⟨_, _, named_writtenMember _, rfl, (takes_text c.username).map _⟩
      (.cons ⟨_, _, named_writtenMember _, rfl, (takes_text c.email).map _⟩ .nil)
  exact (takes_record local_fields c.isValue_members hmembers).map ofDraft

end Credentials

/-! ### Configurations -/

namespace DockerConfig

theorem local_fields :
    ∀ f ∈ fields, ∀ st, (f.read st).Local := by
  simp only [fields, List.forall_mem_singleton]
  exact fun _ => Credentials.local_reader.mapOf.map _

theorem local_reader :
    reader.Local :=
  (Reader.Local.record local_fields _).map _

theorem isValue_members
    (c : DockerConfig) :
    ∀ m ∈ [("auths", Writer.object (c.auths.entries.map fun e => (e.1, e.2.write)))],
      IsValue (octets m.2) := by
  simp only [List.forall_mem_singleton]
  refine isValue_object ?_
  simp only [List.forall_mem_map]
  exact fun e _ => e.2.isValue_write

theorem takes_write
    (c : DockerConfig) :
    Takes reader (octets c.write) c.withoutPasswords := by
  have hauths := takes_mapOf Credentials.local_reader Credentials.isValue_write
    Credentials.takes_write c.auths
  have hmembers : TakesMembers (Reader.onField fields) none
      ([("auths", Writer.object (c.auths.entries.map fun e => (e.1, e.2.write)))].map writtenMember)
      (some (c.auths.mapValues Credentials.withoutPassword)) :=
    .cons ⟨_, _, named_writtenMember _, rfl, hauths.map some⟩ .nil
  exact (takes_record local_fields c.isValue_members hmembers).map _

theorem decode_write
    (c : DockerConfig) :
    decode (octets c.write) = .ok c.withoutPasswords :=
  local_reader.readWhole_of_takes (isValue_object c.isValue_members) c.takes_write

/-- An encoded configuration is decoded to the configuration with empty passwords. -/
theorem decode_encode
    (c : DockerConfig) :
    decode c.encode.toUTF8.toList = .ok c.withoutPasswords := by
  rw [Text.toList_toUTF8, encode, String.toList_ofList]
  exact c.decode_write

/-- Configurations have one encoding exactly if they differ at most in passwords. -/
theorem encode_eq_iff
    (c c' : DockerConfig) :
    c.encode = c'.encode ↔ c.withoutPasswords = c'.withoutPasswords := by
  constructor
  · intro h
    have hwrite : c.write = c'.write := String.ofList_injective h
    have hdecode := c.decode_write
    rw [hwrite, c'.decode_write] at hdecode
    exact (Except.ok.inj hdecode).symm
  · intro h
    rw [encode, encode, ← c.write_withoutPasswords, h, c'.write_withoutPasswords]

end DockerConfig
end Registry
end ServingAdmin
