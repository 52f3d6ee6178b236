import ServingAdmin.Proofs.Registry.RoundTrip

/-!
# Unknown members of configurations

A configuration may have members besides those that are read: at the top, and in each of its auth
entries, where Docker itself writes one.  Put in at any place, with any name that is not known and
any value, such a member changes nothing (`decode_extended_iff`): the text decodes, or not, as it
did without the member, and to the same configuration.
-/

namespace ServingAdmin
namespace Registry

open Json
open Text (octets)

/-- Auths by server, and what they become when an unknown member is put into the object of an auth
entry. -/
def AuthsExtended : List UInt8 → List UInt8 → Prop :=
  ChangedUnder (fun _ => True) (Grown ["username", "password", "email"])

/-- The value that is a configuration, and the one that it becomes when an unknown member is put in:
into the object at the top, or into the object of an auth entry. -/
inductive Extended : List UInt8 → List UInt8 → Prop
  | config
      {v v' : List UInt8}
      (h : Grown ["auths"] v v') :
      Extended v v'
  | entry
      {v v' : List UInt8}
      (h : ChangedUnder (· = "auths") AuthsExtended v v') :
      Extended v v'
  | entryOfArray
      {v v' : List UInt8}
      (h : ChangedFirst AuthsExtended v v') :
      Extended v v'

variable {v v' front behind : List UInt8}

/-- Credentials are read as before when they are grown by an unknown member. -/
theorem Credentials.readAlike_of_grown
    (h : Grown ["username", "password", "email"] v v') :
    ReadAlike Credentials.reader v v' := by
  have hfields : Grown (Credentials.fields.map Reader.Field.name) v v' := h
  exact (hfields.readAlike_record local_fields _).map (.record local_fields _) h.isValue.1
    h.isValue.2 ofDraft

theorem AuthsExtended.isValue
    (h : AuthsExtended v v') :
    IsValue v ∧ IsValue v' :=
  ChangedUnder.isValue h fun _ _ => Grown.isValue

theorem AuthsExtended.readAlike
    (h : AuthsExtended v v') :
    ReadAlike ((Reader.mapOf Credentials.reader).map some) v v' := by
  have hmap : ReadAlike (Reader.mapOf Credentials.reader) v v' :=
    ChangedUnder.readAlike_mapOf h (fun _ _ => Grown.isValue) Credentials.local_reader
      fun _ _ => Credentials.readAlike_of_grown
  exact hmap.map Credentials.local_reader.mapOf h.isValue.1 h.isValue.2 some

theorem Extended.isValue
    (h : Extended v v') :
    IsValue v ∧ IsValue v' := by
  cases h with
  | config h => exact h.isValue
  | entry h => exact h.isValue fun _ _ => AuthsExtended.isValue
  | entryOfArray h => exact h.isValue fun _ _ => AuthsExtended.isValue

theorem Extended.readAlike
    (h : Extended v v') :
    ReadAlike DockerConfig.reader v v' := by
  have hlocal := DockerConfig.local_fields
  have hrecord : ReadAlike (Reader.record DockerConfig.fields none) v v' := by
    cases h with
    | config h =>
        have hfields : Grown (DockerConfig.fields.map Reader.Field.name) v v' := h
        exact hfields.readAlike_record hlocal none
    | entry h =>
        refine h.readAlike_record (fun _ _ => AuthsExtended.isValue) hlocal ?_ none
        simp only [DockerConfig.fields, List.forall_mem_singleton]
        exact fun _ _ _ _ => AuthsExtended.readAlike
    | entryOfArray h =>
        exact h.readAlike_record (fun _ _ => AuthsExtended.isValue) hlocal
          (fun _ _ _ => AuthsExtended.readAlike) none
  exact hrecord.map (.record hlocal _) h.isValue.1 h.isValue.2 _

/-- Unknown members are ignored: a text decodes to a configuration if and only if the text with one
more unknown member does. -/
theorem decode_extended_iff
    (h : Extended v v')
    (hfront : Blanks front)
    (hbehind : Blanks behind)
    (c : DockerConfig) :
    DockerConfig.decode (front ++ (v ++ behind)) = .ok c ↔
      DockerConfig.decode (front ++ (v' ++ behind)) = .ok c := by
  have hlocal := DockerConfig.local_reader
  rw [DockerConfig.decode, DockerConfig.decode, hlocal.readWhole_iff h.isValue.1 hfront hbehind,
    hlocal.readWhole_iff h.isValue.2 hfront hbehind]
  exact h.readAlike c

/-- A configuration with one auth entry, of the given members. -/
def entryConfig
    (members : List (String × List Char)) :
    List UInt8 :=
  octets (Writer.object [("auths", Writer.object [("r.io", Writer.object members)])])

def userMember : String × List Char :=
  ("username", Writer.string "u")

/-- A member that is unknown, with a value that is nested and has a number out of all ranges. -/
def authMember : String × List Char :=
  ("auth", "[ -1E+999,\x7b \x7d\n]".toList)

theorem isValue_authMember :
    IsValue (octets authMember.2) := by
  have htext : octets authMember.2 = arrayText []
      [⟨[0x20], Octet.minus :: ([0x31] ++ ([] ++ (0x45 :: ([Octet.plus] ++ [0x39, 0x39, 0x39])))),
        []⟩, ⟨[], objectText [0x20] [], [0x0A]⟩] := by
    decide
  have hdigits : IsDigits [0x39, 0x39, 0x39] := ⟨by decide, List.all_eq_true.mp (by decide)⟩
  have hwhole : IsWhole [0x31] := .digits (by decide) (by decide) (by simp)
  have hexponent : IsExponent (0x45 :: ([Octet.plus] ++ [0x39, 0x39, 0x39])) :=
    .digits (by decide) (by decide) hdigits
  rw [htext]
  refine isValue_arrayText blanks_nil (List.forall_mem_cons.mpr
    ⟨⟨⟨by decide, by decide⟩, .scalar (.negative (.parts hwhole .absent hexponent))⟩,
      List.forall_mem_singleton.mpr ⟨⟨by decide, by decide⟩, isValue_objectText (by decide) ?_⟩⟩)
  simp

theorem decode_extended_iff_authMember :
    entryConfig [userMember] =
        octets "\x7b\"auths\":\x7b\"r.io\":\x7b\"username\":\"u\"\x7d\x7d\x7d".toList ∧
      entryConfig [userMember, authMember] =
        octets ("\x7b\"auths\":\x7b\"r.io\":\x7b\"username\":\"u\"," ++
          "\"auth\":[ -1E+999,\x7b \x7d\n]\x7d\x7d\x7d").toList ∧
      ∃ c, c.auths.get? "r.io" = some ⟨"u", "", ""⟩ ∧
        Extended (entryConfig [userMember]) (entryConfig [userMember, authMember]) ∧
        DockerConfig.decode ([0x20] ++ (entryConfig [userMember] ++ [0x0A])) = .ok c ∧
        DockerConfig.decode ([0x20] ++ (entryConfig [userMember, authMember] ++ [0x0A])) =
          .ok c := by
  have hgrown : Grown ["username", "password", "email"]
      (octets (Writer.object ([userMember] ++ [])))
      (octets (Writer.object ([userMember] ++ authMember :: []))) :=
    grown_object (List.forall_mem_singleton.mpr (isValue_string "u")) isValue_authMember (by decide)
  have hauths : AuthsExtended (octets (Writer.object [("r.io", Writer.object [userMember])]))
      (octets (Writer.object [("r.io", Writer.object [userMember, authMember])])) :=
    changedUnder_object trivial hgrown
  have hextended : Extended (entryConfig [userMember]) (entryConfig [userMember, authMember]) :=
    .entry (changedUnder_object rfl hauths)
  have hdecode : DockerConfig.decode ([0x20] ++ (entryConfig [userMember] ++ [0x0A])) =
      .ok ⟨KeyMap.empty.insert "r.io" ⟨"u", "", ""⟩⟩ := by
    decide +kernel
  exact ⟨by decide, by decide, _, by decide, hextended, hdecode,
    (decode_extended_iff hextended (by decide) (by decide) _).mp hdecode⟩

end Registry
end ServingAdmin
