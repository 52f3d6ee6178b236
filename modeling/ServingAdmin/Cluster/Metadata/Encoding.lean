import ServingAdmin.Calendar.Printer
import ServingAdmin.Cluster.Metadata.Basic
import ServingAdmin.Json.Value.Printer

/-!
# Encoding of metadata

The JSON form of metadata.  Parts that are missing are left out.
-/

namespace ServingAdmin
namespace Cluster

open Json

/-- The members that are there. -/
def present (members : List (Option (String × List Char))) : List (String × List Char) :=
  members.filterMap id

/-- A member whose value may be missing. -/
def member? {α : Type} (name : String) (write : α → List Char) (value : Option α) :
    Option (String × List Char) :=
  value.map fun a => (name, write a)

/-- A list of which each item has a form. -/
def writeList {α : Type} (write : α → List Char) (items : List α) : List Char :=
  Writer.array (items.map write)

/-- An object with text values. -/
def writeTexts (m : KeyMap String) : List Char :=
  Writer.object (m.entries.map fun e => (e.1, Writer.string e.2))

/-- A timestamp. -/
def writeTimestamp (t : Calendar.Timestamp) : List Char := Writer.string t.text

/-- The JSON form of an owner. -/
def Owner.write (o : Owner) : List Char :=
  Writer.object (present [
    some ("apiVersion", Writer.string o.apiVersion),
    member? "blockOwnerDeletion" Writer.boolean o.blockOwnerDeletion,
    member? "controller" Writer.boolean o.controller,
    some ("kind", Writer.string o.kind),
    some ("name", Writer.string o.name),
    some ("uid", Writer.string o.uid)])

/-- The JSON form of managed fields. -/
def ManagedFields.write (m : ManagedFields) : List Char :=
  Writer.object (present [
    member? "apiVersion" Writer.string m.apiVersion,
    member? "fields" Value.write m.fields,
    member? "manager" Writer.string m.manager,
    member? "operation" Writer.string m.operation,
    member? "time" writeTimestamp m.time])

/-- The JSON form of what a list carries about itself. -/
def ListMetadata.write (m : ListMetadata) : List Char :=
  Writer.object (present [
    member? "continue" Writer.string m.continuation,
    member? "resourceVersion" Writer.string m.resourceVersion,
    member? "selfLink" Writer.string m.selfLink])

/-- The JSON form of a cause. -/
def Cause.write (c : Cause) : List Char :=
  Writer.object (present [
    member? "field" Writer.string c.field,
    member? "message" Writer.string c.message,
    member? "reason" Writer.string c.reason])

/-- The JSON form of what a verdict is about. -/
def VerdictDetails.write (d : VerdictDetails) : List Char :=
  Writer.object (present [
    member? "causes" (writeList Cause.write) d.causes,
    member? "group" Writer.string d.group,
    member? "kind" Writer.string d.kind,
    member? "name" Writer.string d.name,
    member? "retryAfterSeconds" Writer.whole d.retryAfterSeconds,
    member? "uid" Writer.string d.uid])

/-- The JSON form of a verdict. -/
def Verdict.write (v : Verdict) : List Char :=
  Writer.object (present [
    some ("apiVersion", Writer.string "v1"),
    member? "code" Writer.whole v.code,
    member? "details" VerdictDetails.write v.details,
    some ("kind", Writer.string "Status"),
    member? "message" Writer.string v.message,
    member? "metadata" ListMetadata.write v.metadata,
    member? "reason" Writer.string v.reason,
    member? "status" Writer.string v.status])

/-- The JSON form of initializers. -/
def Initializers.write (i : Initializers) : List Char :=
  Writer.object (present [
    some ("pending", writeList (fun name => Writer.object [("name", Writer.string name)]) i.pending),
    member? "result" Verdict.write i.result])

/-- The JSON form of metadata. -/
def Metadata.write (m : Metadata) : List Char :=
  Writer.object (present [
    member? "annotations" writeTexts m.annotations,
    member? "clusterName" Writer.string m.clusterName,
    member? "creationTimestamp" writeTimestamp m.creationTimestamp,
    member? "deletionGracePeriodSeconds" Writer.whole m.deletionGracePeriodSeconds,
    member? "deletionTimestamp" writeTimestamp m.deletionTimestamp,
    member? "finalizers" (writeList Writer.string) m.finalizers,
    member? "generateName" Writer.string m.generateName,
    member? "generation" Writer.whole m.generation,
    member? "initializers" Initializers.write m.initializers,
    member? "labels" writeTexts m.labels,
    member? "managedFields" (writeList ManagedFields.write) m.managedFields,
    member? "name" Writer.string m.name,
    member? "namespace" Writer.string m.ns,
    member? "ownerReferences" (writeList Owner.write) m.owners,
    member? "resourceVersion" Writer.string m.resourceVersion,
    member? "selfLink" Writer.string m.selfLink,
    member? "uid" Writer.string m.uid])

end Cluster
end ServingAdmin
