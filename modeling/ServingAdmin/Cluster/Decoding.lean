import ServingAdmin.Cluster.Fault
import ServingAdmin.Cluster.Metadata.Decoding
import ServingAdmin.Cluster.Object
import ServingAdmin.Text.Base64

/-!
# Decoding of answers

The objects that answers of the cluster hold, read from their JSON form.  Config maps,
secrets and namespaces are open objects like their metadata; lists, claims and refusals
are records in the strict sense of `Json.Reader.record`.  Objects are read inside of a
number of open brackets, none if they stand alone.
-/

namespace ServingAdmin
namespace Cluster

open Json (Reader)

/-- Reads octets in base sixty-four. -/
def octets : Reader (List UInt8) :=
  Reader.text.check fun s =>
    match Text.Base64.decode? s.toList with
    | some l => .ok l
    | none => .error .mismatched

/-- Reads a config map that stands alone. -/
def ConfigMap.reader : Reader ConfigMap :=
  openObject [
    constant "apiVersion" "v1",
    openField "binaryData" (Reader.mapOf octets)
      fun (c : ConfigMap) v => { c with binaryData := v },
    openField "data" (Reader.mapOf Reader.text) fun (c : ConfigMap) v => { c with data := v },
    constant "kind" "ConfigMap",
    openField "metadata" (Metadata.reader 1)
      fun (c : ConfigMap) v => { c with metadata := v }]
    ⟨none, none, none⟩

/-- Reads a secret. -/
def Secret.reader (depth : Nat) : Reader Secret :=
  openObject [
    constant "apiVersion" "v1",
    openField "data" (Reader.mapOf octets) fun (s : Secret) v => { s with data := v },
    constant "kind" "Secret",
    openField "metadata" (Metadata.reader (depth + 1))
      fun (s : Secret) v => { s with metadata := v },
    openField "stringData" (Reader.mapOf Reader.text) fun (s : Secret) _ => s,
    openField "type" Reader.text fun (s : Secret) _ => s]
    ⟨none, none⟩

/-- Reads the name of a namespace, if it has one. -/
def namespaceReader (depth : Nat) : Reader (Option String) :=
  (openObject [
    constant "apiVersion" "v1", constant "kind" "Namespace",
    openField "metadata" (Metadata.reader (depth + 1)) fun (_ : Option Metadata) v => v,
    openField "spec" spec fun metadata _ => metadata,
    openField "status" status fun metadata _ => metadata] none).map
      fun metadata => metadata.bind Metadata.name
where
  /-- Reads what a namespace should be like. -/
  spec : Reader Unit :=
    openObject [openField "finalizers" (Reader.listOf Reader.text) fun _ _ => ()] ()
  /-- Reads what a namespace is like. -/
  status : Reader Unit := openObject [openField "phase" Reader.text fun _ _ => ()] ()

/-- The namespace in the specification of a claim, which has to be there. -/
def claimSpecReader : Reader String :=
  (Reader.record
    [⟨"namespace", Option.isSome, fun _ => Reader.text.map some⟩] none).check required

/-- A claim of which a part has been read. -/
structure Claim.Draft where
  apiVersion : Option String
  kind : Option String
  metadata : Option Metadata
  ns : Option String

/-- Reads the name of a claim, if it has one, and its namespace. -/
def Claim.reader (depth : Nat) : Reader ListedClaim :=
  (Reader.record [
    ⟨"apiVersion", fun (d : Claim.Draft) => d.apiVersion.isSome,
      fun d => Reader.text.map fun s => { d with apiVersion := some s }⟩,
    ⟨"kind", fun d => d.kind.isSome, fun d => Reader.text.map fun s => { d with kind := some s }⟩,
    ⟨"metadata", fun d => d.metadata.isSome,
      fun d => (Metadata.reader (depth + 1)).map fun m => { d with metadata := some m }⟩,
    ⟨"spec", fun d => d.ns.isSome,
      fun d => claimSpecReader.map fun s => { d with ns := some s }⟩]
    ⟨none, none, none, none⟩).check fun d => do
      let _ ← required d.apiVersion
      let _ ← required d.kind
      let metadata ← required d.metadata
      return ⟨metadata.name, ← required d.ns⟩

/-- A list of which a part has been read. -/
structure ListDraft (α : Type) where
  metadata : Bool
  items : Option (List α)

/-- The brackets that are open around the items of a list that stands alone. -/
def itemDepth : Nat := 2

/-- Reads a list of objects that stands alone. -/
def listReader {α : Type} (item : Reader α) : Reader (List α) :=
  (Reader.record [
    ⟨"metadata", fun (d : ListDraft α) => d.metadata,
      fun d => ListMetadata.reader.map fun _ => { d with metadata := true }⟩,
    ⟨"items", fun d => d.items.isSome,
      fun d => (Reader.listOf item).map fun l => { d with items := some l }⟩]
    ⟨false, none⟩).check fun d => if d.metadata then required d.items else .error .mismatched

/-- A refusal of which a part has been read. -/
structure Refusal.Draft where
  status : Option String
  message : Option String
  reason : Option String
  code : Option Int

/-- The fields of a refusal. -/
def Refusal.fields : List (Reader.Field Refusal.Draft) := [
  ⟨"status", fun d => d.status.isSome,
    fun d => Reader.text.map fun s => { d with status := some s }⟩,
  ⟨"message", fun d => d.message.isSome,
    fun d => Reader.text.map fun s => { d with message := some s }⟩,
  ⟨"reason", fun d => d.reason.isSome,
    fun d => Reader.text.map fun s => { d with reason := some s }⟩,
  ⟨"code", fun d => d.code.isSome,
    fun d => (Reader.whole 0 65535).map fun n => { d with code := some n }⟩]

/-- Reads a refusal, of which the status and the code have to be there. -/
def Refusal.reader : Reader Refusal :=
  (Reader.record Refusal.fields ⟨none, none, none, none⟩).check fun d => do
    return {
      status := ← required d.status, message := d.message.getD "",
      reason := d.reason.getD "", code := (← required d.code).toNat }

/-- A field of a record whose value does not matter, and which of the fields were read. -/
def unkept {α : Type} (name : String) (r : Reader α) : Reader.Field (List String) :=
  ⟨name, fun names => names.contains name, fun names => r.map fun _ => name :: names⟩

/-- Reads a record of which nothing is kept and all parts may be missing. -/
def unkeptRecord (fields : List (Reader.Field (List String))) : Reader Unit :=
  (Reader.record fields []).map fun _ => ()

/-- Reads the status that answers a removal. -/
def removalStatusReader : Reader Unit :=
  unkeptRecord [
    unkept "status" Reader.text, unkept "message" Reader.text, unkept "reason" Reader.text,
    unkept "details" details.optional, unkept "code" (Reader.whole 0 0xFFFF)]
where
  /-- Reads a cause. -/
  cause : Reader Unit :=
    unkeptRecord [
      unkept "reason" Reader.text, unkept "message" Reader.text, unkept "field" Reader.text]
  /-- Reads what the status is about. -/
  details : Reader Unit :=
    unkeptRecord [
      unkept "name" Reader.text, unkept "group" Reader.text, unkept "kind" Reader.text,
      unkept "uid" Reader.text, unkept "causes" (Reader.listOf cause),
      unkept "retryAfterSeconds" (Reader.whole 0 0xFFFF_FFFF)]

/-- Reads the answer to a removal: a status or the claim that was removed.  Which of them it is
shows when it is read as a value of any shape. -/
def removalReader : Reader Unit where
  run s :=
    match (Json.Value.reader Json.Value.depthLimit).run s with
    | .error fault => .error fault
    | .ok (v, _) =>
        if v.member? "kind" = some (.text "Status") then removalStatusReader.run s
        else ((Claim.reader 0).map fun _ => ()).run s
  shrinks := by
    intro s rest a h
    split at h
    · cases h
    · split at h
      · exact Reader.shrinks _ h
      · exact Reader.shrinks _ h

end Cluster
end ServingAdmin
