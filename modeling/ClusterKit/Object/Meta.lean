/-
# Metadata

Every object carries metadata: its name and namespace, the version under which
it is stored, its labels and the like. All of it is optional. A list carries
metadata of its own.

Key definitions: `ObjectMeta`, `ObjectMeta.nameAny`, `ManagedFieldsEntry`, `ListMeta`.
-/
import ClusterKit.Json.Value
import ClusterKit.Object.Timestamp
import ClusterKit.Selector.Basic

namespace ClusterKit

/-- Why a call gives up without an answer. -/
structure Panic where
  text : String
  deriving DecidableEq, Repr

/-- An object that another one depends on. -/
structure OwnerReference where
  apiVersion : String
  blockOwnerDeletion : Option Bool
  controller : Option Bool
  kind : String
  name : String
  uid : String
  deriving DecidableEq

/-- Which fields of an object someone manages: any value, of which the objects list their
members in order. Null would stand for no such value. -/
structure FieldsV1 where
  value : Json
  canonical : value.Canonical
  ne_null : value ≠ .null
  deriving DecidableEq

/-- The fields of an object that someone manages. -/
structure ManagedFieldsEntry where
  apiVersion : Option String
  fieldsType : Option String
  fieldsV1 : Option FieldsV1
  manager : Option String
  operation : Option String
  subresource : Option String
  time : Option Timestamp
  deriving DecidableEq

/-- The metadata of an object. -/
structure ObjectMeta where
  annotations : Option Labels
  creationTimestamp : Option Timestamp
  deletionGracePeriodSeconds : Option Int64
  deletionTimestamp : Option Timestamp
  finalizers : Option (List String)
  generateName : Option String
  generation : Option Int64
  labels : Option Labels
  managedFields : Option (List ManagedFieldsEntry)
  name : Option String
  ns : Option String
  ownerReferences : Option (List OwnerReference)
  resourceVersion : Option String
  selfLink : Option String
  uid : Option String
  deriving DecidableEq

namespace ObjectMeta

/-- No metadata. -/
def empty : ObjectMeta :=
  ⟨none, none, none, none, none, none, none, none, none, none, none, none, none, none, none⟩

instance : Inhabited ObjectMeta := ⟨empty⟩

/-- The metadata of an object of which only the name is known. -/
def named (name : String) : ObjectMeta :=
  { empty with name := some name }

/-- The name, or else the beginning of a generated one, or else nothing. -/
def nameAny (m : ObjectMeta) : String :=
  (m.name.or m.generateName).getD ""

/-- The name, which has to be there. -/
def nameUnchecked (m : ObjectMeta) : Except Panic String :=
  match m.name with
  | some n => .ok n
  | none => .error ⟨".metadata.name missing"⟩

/-- The labels, none when they are absent. -/
def labelTable (m : ObjectMeta) : Labels :=
  m.labels.getD .empty

/-- The annotations, none when they are absent. -/
def annotationTable (m : ObjectMeta) : Labels :=
  m.annotations.getD .empty

/-- The metadata with the label `key` set. -/
def setLabel (key value : String) (m : ObjectMeta) : ObjectMeta :=
  { m with labels := some (m.labelTable.insert key value) }

/-- The metadata with the annotation `key` set. -/
def setAnnotation (key value : String) (m : ObjectMeta) : ObjectMeta :=
  { m with annotations := some (m.annotationTable.insert key value) }

end ObjectMeta

/-- The metadata of a list. -/
structure ListMeta where
  continueToken : Option String
  remainingItemCount : Option Int64
  resourceVersion : Option String
  selfLink : Option String
  deriving DecidableEq

namespace ListMeta

/-- No metadata. -/
def empty : ListMeta :=
  ⟨none, none, none, none⟩

instance : Inhabited ListMeta := ⟨empty⟩

/-- The metadata of a list taken at a version. -/
def atVersion (version : String) : ListMeta :=
  { empty with resourceVersion := some version }

end ListMeta
end ClusterKit
