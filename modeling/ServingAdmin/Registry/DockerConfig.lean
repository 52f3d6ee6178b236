import ServingAdmin.Json.Reader
import ServingAdmin.Json.Writer

/-!
# Docker configurations

The data of a registry secret: the credentials by server.  A configuration is decoded
from JSON, where a member that is missing counts as empty, and is encoded without the
passwords.
-/

namespace ServingAdmin
namespace Registry

/-- The credentials for one server. -/
structure Credentials where
  username : String
  password : String
  email : String
  deriving DecidableEq

/-- Credentials by server. -/
structure DockerConfig where
  auths : KeyMap Credentials
  deriving DecidableEq

namespace Credentials

/-- Credentials of which a part has been read. -/
structure Draft where
  username : Option String
  password : Option String
  email : Option String

/-- The fields of credentials, in the order of the array form. -/
def fields : List (Json.Reader.Field Draft) := [
  ⟨"username", fun d => d.username.isSome,
    fun d => Json.Reader.text.map fun s => { d with username := some s }⟩,
  ⟨"password", fun d => d.password.isSome,
    fun d => Json.Reader.text.map fun s => { d with password := some s }⟩,
  ⟨"email", fun d => d.email.isSome,
    fun d => Json.Reader.text.map fun s => { d with email := some s }⟩]

/-- The credentials of a draft. -/
def ofDraft (d : Draft) : Credentials :=
  ⟨d.username.getD "", d.password.getD "", d.email.getD ""⟩

/-- Reads credentials. -/
def reader : Json.Reader Credentials :=
  (Json.Reader.record fields ⟨none, none, none⟩).map ofDraft

/-- The compact form, without the password. -/
def write (c : Credentials) : List Char :=
  Json.Writer.object [
    ("username", Json.Writer.string c.username), ("email", Json.Writer.string c.email)]

end Credentials

namespace DockerConfig

/-- The one field of a configuration. -/
def fields : List (Json.Reader.Field (Option (KeyMap Credentials))) :=
  [⟨"auths", Option.isSome, fun _ => (Json.Reader.mapOf Credentials.reader).map some⟩]

/-- Reads a configuration. -/
def reader : Json.Reader DockerConfig :=
  (Json.Reader.record fields none).map fun auths => ⟨auths.getD .empty⟩

/-- Decodes the data of a secret. -/
def decode (octets : List UInt8) : Except Json.Fault DockerConfig := reader.readWhole octets

/-- The compact form, without passwords. -/
def write (c : DockerConfig) : List Char :=
  Json.Writer.object [
    ("auths", Json.Writer.object (c.auths.entries.map fun e => (e.1, e.2.write)))]

/-- The compact form as a text. -/
def encode (c : DockerConfig) : String := String.ofList c.write

end DockerConfig

end Registry
end ServingAdmin
