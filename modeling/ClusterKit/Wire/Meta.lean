/-
# Metadata in JSON

Metadata is written with the parts that are there. On reading, null counts as
absent, of members with one name the last counts, and members of other names
are passed over. The parts of an owner reference that identify the owner are
always written and are empty when they are not given.

Key definitions: `ObjectMeta.toJson`, `ObjectMeta.reader`, `ListMeta.toJson`, `ListMeta.reader`.
-/
import ClusterKit.Object.Meta
import ClusterKit.Json.Read

namespace ClusterKit

/-- The member `name`, if there is a value for it. -/
def memberOf (name : String) (f : α → Json) (v : Option α) : List (String × Json) :=
  match v with
  | none => []
  | some a => [(name, f a)]

/-! ### Owner references -/

namespace OwnerReference

/-- The written reference. -/
def toJson (o : OwnerReference) : Json :=
  .fields <|
    [("apiVersion", .text o.apiVersion)] ++
    memberOf "blockOwnerDeletion" .bool o.blockOwnerDeletion ++
    memberOf "controller" .bool o.controller ++
    [("kind", .text o.kind), ("name", .text o.name), ("uid", .text o.uid)]

/-- Take one member of a reference. -/
def takeMember (o : OwnerReference) (k : String) (d : Json.Draft) :
    Except Json.ReadError OwnerReference :=
  match k with
  | "apiVersion" => do
    let v ← Json.Reader.optional Json.Reader.text d
    return { o with apiVersion := v.getD "" }
  | "blockOwnerDeletion" => do
    let v ← Json.Reader.optional Json.Reader.flag d
    return { o with blockOwnerDeletion := v }
  | "controller" => do
    let v ← Json.Reader.optional Json.Reader.flag d
    return { o with controller := v }
  | "kind" => do
    let v ← Json.Reader.optional Json.Reader.text d
    return { o with kind := v.getD "" }
  | "name" => do
    let v ← Json.Reader.optional Json.Reader.text d
    return { o with name := v.getD "" }
  | "uid" => do
    let v ← Json.Reader.optional Json.Reader.text d
    return { o with uid := v.getD "" }
  | _ => do
    Json.Reader.skip d
    return o

/-- Read a reference. -/
def reader : Json.Reader OwnerReference :=
  Json.Reader.members takeMember ⟨"", none, none, "", "", ""⟩

end OwnerReference

/-! ### Points in time -/

namespace Timestamp

/-- The written point in time. -/
def toJson (t : Timestamp) : Json :=
  .text t.text

/-- Read a point in time. -/
def reader : Json.Reader Timestamp := fun d => do
  let s ← Json.Reader.text d
  match parse? s with
  | some t => return t
  | none => throw .mismatch

end Timestamp

/-! ### Managed fields -/

/-- A value as the fields that someone manages, null being none. -/
def FieldsV1.of? (v : { v : Json // v.Canonical }) : Option FieldsV1 :=
  if h : v.val = .null then none else some ⟨v.val, v.property, h⟩

/-- Read the fields that someone manages, or null. -/
def FieldsV1.reader : Json.Reader (Option FieldsV1) := fun d => do
  let v ← Json.Reader.canonical d
  return FieldsV1.of? v

namespace ManagedFieldsEntry

/-- The written entry. -/
def toJson (e : ManagedFieldsEntry) : Json :=
  .fields <|
    memberOf "apiVersion" .text e.apiVersion ++
    memberOf "fieldsType" .text e.fieldsType ++
    memberOf "fieldsV1" FieldsV1.value e.fieldsV1 ++
    memberOf "manager" .text e.manager ++
    memberOf "operation" .text e.operation ++
    memberOf "subresource" .text e.subresource ++
    memberOf "time" Timestamp.toJson e.time

/-- Take one member of an entry. -/
def takeMember (e : ManagedFieldsEntry) (k : String) (d : Json.Draft) :
    Except Json.ReadError ManagedFieldsEntry :=
  match k with
  | "apiVersion" => do
    let v ← Json.Reader.optional Json.Reader.text d
    return { e with apiVersion := v }
  | "fieldsType" => do
    let v ← Json.Reader.optional Json.Reader.text d
    return { e with fieldsType := v }
  | "fieldsV1" => do
    let v ← FieldsV1.reader d
    return { e with fieldsV1 := v }
  | "manager" => do
    let v ← Json.Reader.optional Json.Reader.text d
    return { e with manager := v }
  | "operation" => do
    let v ← Json.Reader.optional Json.Reader.text d
    return { e with operation := v }
  | "subresource" => do
    let v ← Json.Reader.optional Json.Reader.text d
    return { e with subresource := v }
  | "time" => do
    let v ← Json.Reader.optional Timestamp.reader d
    return { e with time := v }
  | _ => do
    Json.Reader.skip d
    return e

/-- Read an entry. -/
def reader : Json.Reader ManagedFieldsEntry :=
  Json.Reader.members takeMember ⟨none, none, none, none, none, none, none⟩

end ManagedFieldsEntry

/-! ### Objects -/

namespace ObjectMeta

/-- The written metadata. -/
def toJson (m : ObjectMeta) : Json :=
  .fields <|
    memberOf "annotations" Json.ofTexts m.annotations ++
    memberOf "creationTimestamp" Timestamp.toJson m.creationTimestamp ++
    memberOf "deletionGracePeriodSeconds" Json.ofInt64 m.deletionGracePeriodSeconds ++
    memberOf "deletionTimestamp" Timestamp.toJson m.deletionTimestamp ++
    memberOf "finalizers" Json.ofStrings m.finalizers ++
    memberOf "generateName" .text m.generateName ++
    memberOf "generation" Json.ofInt64 m.generation ++
    memberOf "labels" Json.ofTexts m.labels ++
    memberOf "managedFields" (fun es => .list (es.map ManagedFieldsEntry.toJson))
      m.managedFields ++
    memberOf "name" .text m.name ++
    memberOf "namespace" .text m.ns ++
    memberOf "ownerReferences" (fun os => .list (os.map OwnerReference.toJson)) m.ownerReferences ++
    memberOf "resourceVersion" .text m.resourceVersion ++
    memberOf "selfLink" .text m.selfLink ++
    memberOf "uid" .text m.uid

/-- Take one member of the metadata. -/
def takeMember (m : ObjectMeta) (k : String) (d : Json.Draft) : Except Json.ReadError ObjectMeta :=
  match k with
  | "annotations" => do
    let v ← Json.Reader.optional (Json.Reader.table Json.Reader.text) d
    return { m with annotations := v }
  | "creationTimestamp" => do
    let v ← Json.Reader.optional Timestamp.reader d
    return { m with creationTimestamp := v }
  | "deletionGracePeriodSeconds" => do
    let v ← Json.Reader.optional Json.Reader.int64 d
    return { m with deletionGracePeriodSeconds := v }
  | "deletionTimestamp" => do
    let v ← Json.Reader.optional Timestamp.reader d
    return { m with deletionTimestamp := v }
  | "finalizers" => do
    let v ← Json.Reader.optional (Json.Reader.items Json.Reader.text) d
    return { m with finalizers := v }
  | "generateName" => do
    let v ← Json.Reader.optional Json.Reader.text d
    return { m with generateName := v }
  | "generation" => do
    let v ← Json.Reader.optional Json.Reader.int64 d
    return { m with generation := v }
  | "labels" => do
    let v ← Json.Reader.optional (Json.Reader.table Json.Reader.text) d
    return { m with labels := v }
  | "managedFields" => do
    let v ← Json.Reader.optional (Json.Reader.items ManagedFieldsEntry.reader) d
    return { m with managedFields := v }
  | "name" => do
    let v ← Json.Reader.optional Json.Reader.text d
    return { m with name := v }
  | "namespace" => do
    let v ← Json.Reader.optional Json.Reader.text d
    return { m with ns := v }
  | "ownerReferences" => do
    let v ← Json.Reader.optional (Json.Reader.items OwnerReference.reader) d
    return { m with ownerReferences := v }
  | "resourceVersion" => do
    let v ← Json.Reader.optional Json.Reader.text d
    return { m with resourceVersion := v }
  | "selfLink" => do
    let v ← Json.Reader.optional Json.Reader.text d
    return { m with selfLink := v }
  | "uid" => do
    let v ← Json.Reader.optional Json.Reader.text d
    return { m with uid := v }
  | _ => do
    Json.Reader.skip d
    return m

/-- Read metadata. -/
def reader : Json.Reader ObjectMeta :=
  Json.Reader.members takeMember .empty

end ObjectMeta

/-! ### Lists -/

namespace ListMeta

/-- The written metadata. -/
def toJson (m : ListMeta) : Json :=
  .fields <|
    memberOf "continue" .text m.continueToken ++
    memberOf "remainingItemCount" Json.ofInt64 m.remainingItemCount ++
    memberOf "resourceVersion" .text m.resourceVersion ++
    memberOf "selfLink" .text m.selfLink

/-- Take one member of the metadata. -/
def takeMember (m : ListMeta) (k : String) (d : Json.Draft) : Except Json.ReadError ListMeta :=
  match k with
  | "continue" => do
    let v ← Json.Reader.optional Json.Reader.text d
    return { m with continueToken := v }
  | "remainingItemCount" => do
    let v ← Json.Reader.optional Json.Reader.int64 d
    return { m with remainingItemCount := v }
  | "resourceVersion" => do
    let v ← Json.Reader.optional Json.Reader.text d
    return { m with resourceVersion := v }
  | "selfLink" => do
    let v ← Json.Reader.optional Json.Reader.text d
    return { m with selfLink := v }
  | _ => do
    Json.Reader.skip d
    return m

/-- Read metadata. -/
def reader : Json.Reader ListMeta :=
  Json.Reader.members takeMember .empty

end ListMeta
end ClusterKit
