import ServingAdmin.Calendar.Reader
import ServingAdmin.Cluster.Metadata.Basic
import ServingAdmin.Json.Value.Reader

/-!
# Decoding of metadata

The metadata of objects, read from their JSON form.  Objects of the cluster and their
metadata are open: members of other names are passed over, the last of several members
of one name counts, and members whose value is null are missing.
-/

namespace ServingAdmin
namespace Cluster

open Json (Reader)

/-- A field of an open object. -/
def openField {σ α : Type} (name : String) (r : Reader α) (put : σ → Option α → σ) : Reader.Field σ :=
  ⟨name, fun _ => false, fun st => r.optional.map (put st)⟩

/-- A field of an open object that has to be there with a value. -/
def needed {σ α : Type} (name : String) (r : Reader α) (put : σ → α → σ) : Reader.Field σ :=
  ⟨name, fun _ => false, fun st => r.map (put st)⟩

/-- A field that holds a given text if it is there. -/
def constant {σ : Type} (name value : String) : Reader.Field σ :=
  ⟨name, fun _ => false,
    fun st => Reader.text.check fun s => if s = value then .ok st else .error .mismatched⟩

/-- Reads an open object. -/
def openObject {σ : Type} (fields : List (Reader.Field σ)) (start : σ) : Reader σ :=
  Reader.object (Json.Reader.onField fields) start

/-- Reads a whole number of 64 bits. -/
def int64 : Reader Int := Reader.whole (-0x8000_0000_0000_0000) 0x7FFF_FFFF_FFFF_FFFF

/-- Reads a whole number of 32 bits. -/
def int32 : Reader Int := Reader.whole (-0x8000_0000) 0x7FFF_FFFF

/-- Takes a value that has to be there. -/
def required {α : Type} (value : Option α) : Except Json.Fault α :=
  match value with
  | some a => .ok a
  | none => .error .mismatched

/-- Reads a timestamp. -/
def timestamp : Reader Calendar.Timestamp :=
  Reader.text.check fun s => required (Calendar.Timestamp.read? s)

/-- An owner of which a part has been read. -/
structure Owner.Draft where
  apiVersion : Option String
  kind : Option String
  name : Option String
  uid : Option String
  controller : Option Bool
  blockOwnerDeletion : Option Bool

/-- Reads an owner. -/
def Owner.reader : Reader Owner :=
  (openObject [
    needed "apiVersion" Reader.text fun (d : Owner.Draft) s => { d with apiVersion := some s },
    needed "kind" Reader.text fun (d : Owner.Draft) s => { d with kind := some s },
    needed "name" Reader.text fun (d : Owner.Draft) s => { d with name := some s },
    needed "uid" Reader.text fun (d : Owner.Draft) s => { d with uid := some s },
    openField "controller" Reader.boolean fun (d : Owner.Draft) b => { d with controller := b },
    openField "blockOwnerDeletion" Reader.boolean
      fun (d : Owner.Draft) b => { d with blockOwnerDeletion := b }]
    ⟨none, none, none, none, none, none⟩).check fun d => do
      return {
        apiVersion := ← required d.apiVersion, kind := ← required d.kind,
        name := ← required d.name, uid := ← required d.uid,
        controller := d.controller, blockOwnerDeletion := d.blockOwnerDeletion }

/-- Reads managed fields inside of so many open brackets. -/
def ManagedFields.reader (depth : Nat) : Reader ManagedFields :=
  openObject [
    openField "apiVersion" Reader.text fun (m : ManagedFields) v => { m with apiVersion := v },
    openField "fields" (Json.Value.reader (Json.Value.depthLimit - (depth + 1)))
      fun (m : ManagedFields) v => { m with fields := v },
    openField "manager" Reader.text fun (m : ManagedFields) v => { m with manager := v },
    openField "operation" Reader.text fun (m : ManagedFields) v => { m with operation := v },
    openField "time" timestamp fun (m : ManagedFields) v => { m with time := v }] {}

/-- Reads what a list carries about itself. -/
def ListMetadata.reader : Reader ListMetadata :=
  openObject [
    openField "continue" Reader.text fun (m : ListMetadata) v => { m with continuation := v },
    openField "resourceVersion" Reader.text
      fun (m : ListMetadata) v => { m with resourceVersion := v },
    openField "selfLink" Reader.text fun (m : ListMetadata) v => { m with selfLink := v }] {}

/-- Reads a cause. -/
def Cause.reader : Reader Cause :=
  openObject [
    openField "field" Reader.text fun (c : Cause) v => { c with field := v },
    openField "message" Reader.text fun (c : Cause) v => { c with message := v },
    openField "reason" Reader.text fun (c : Cause) v => { c with reason := v }] {}

/-- Reads what a verdict is about. -/
def VerdictDetails.reader : Reader VerdictDetails :=
  openObject [
    openField "causes" (Reader.listOf Cause.reader)
      fun (d : VerdictDetails) v => { d with causes := v },
    openField "group" Reader.text fun (d : VerdictDetails) v => { d with group := v },
    openField "kind" Reader.text fun (d : VerdictDetails) v => { d with kind := v },
    openField "name" Reader.text fun (d : VerdictDetails) v => { d with name := v },
    openField "retryAfterSeconds" int32
      fun (d : VerdictDetails) v => { d with retryAfterSeconds := v },
    openField "uid" Reader.text fun (d : VerdictDetails) v => { d with uid := v }] {}

/-- Reads a verdict. -/
def Verdict.reader : Reader Verdict :=
  openObject [
    constant "apiVersion" "v1",
    openField "code" int32 fun (d : Verdict) v => { d with code := v },
    openField "details" VerdictDetails.reader fun (d : Verdict) v => { d with details := v },
    constant "kind" "Status",
    openField "message" Reader.text fun (d : Verdict) v => { d with message := v },
    openField "metadata" ListMetadata.reader fun (d : Verdict) v => { d with metadata := v },
    openField "reason" Reader.text fun (d : Verdict) v => { d with reason := v },
    openField "status" Reader.text fun (d : Verdict) v => { d with status := v }] {}

/-- Reads the name of one that has to act on an object. -/
def initializerReader : Reader String :=
  (openObject [needed "name" Reader.text fun (_ : Option String) s => some s] none).check required

/-- Initializers of which a part has been read. -/
structure Initializers.Draft where
  pending : Option (List String)
  result : Option Verdict

/-- Reads initializers. -/
def Initializers.reader : Reader Initializers :=
  (openObject [
    needed "pending" (Reader.listOf initializerReader)
      fun (d : Initializers.Draft) l => { d with pending := some l },
    openField "result" Verdict.reader fun (d : Initializers.Draft) v => { d with result := v }]
    ⟨none, none⟩).check fun d => do
      return { pending := ← required d.pending, result := d.result }

/-- Reads metadata inside of so many open brackets. -/
def Metadata.reader (depth : Nat) : Reader Metadata :=
  openObject [
    openField "annotations" (Reader.mapOf Reader.text)
      fun (m : Metadata) v => { m with annotations := v },
    openField "clusterName" Reader.text fun (m : Metadata) v => { m with clusterName := v },
    openField "creationTimestamp" timestamp
      fun (m : Metadata) v => { m with creationTimestamp := v },
    openField "deletionGracePeriodSeconds" int64
      fun (m : Metadata) v => { m with deletionGracePeriodSeconds := v },
    openField "deletionTimestamp" timestamp
      fun (m : Metadata) v => { m with deletionTimestamp := v },
    openField "finalizers" (Reader.listOf Reader.text)
      fun (m : Metadata) v => { m with finalizers := v },
    openField "generateName" Reader.text fun (m : Metadata) v => { m with generateName := v },
    openField "generation" int64 fun (m : Metadata) v => { m with generation := v },
    openField "initializers" Initializers.reader
      fun (m : Metadata) v => { m with initializers := v },
    openField "labels" (Reader.mapOf Reader.text)
      fun (m : Metadata) v => { m with labels := v },
    openField "managedFields" (Reader.listOf (ManagedFields.reader (depth + 2)))
      fun (m : Metadata) v => { m with managedFields := v },
    openField "name" Reader.text fun (m : Metadata) v => { m with name := v },
    openField "namespace" Reader.text fun (m : Metadata) v => { m with ns := v },
    openField "ownerReferences" (Reader.listOf Owner.reader)
      fun (m : Metadata) v => { m with owners := v },
    openField "resourceVersion" Reader.text
      fun (m : Metadata) v => { m with resourceVersion := v },
    openField "selfLink" Reader.text fun (m : Metadata) v => { m with selfLink := v },
    openField "uid" Reader.text fun (m : Metadata) v => { m with uid := v }] {}

end Cluster
end ServingAdmin
