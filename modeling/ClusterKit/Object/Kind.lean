/-
# Kinds

A kind is what the calls need to know of a type of objects: how the type names
itself, where an object has its metadata, and how objects are written and
read. Objects change between types by way of their written form.

Key definitions: `Kind`, `Kind.erase`, `Kind.restore`, `Erased.asKind`.
-/
import ClusterKit.Wire.Erased

namespace ClusterKit

/-- A type of objects. -/
structure Kind (α : Type u) where
  identity : TypeIdentity
  metadata : α → ObjectMeta
  withMetadata : ObjectMeta → α → α
  toJson? : α → Except Json.ReadError Json
  reader : Json.Reader α

/-- The kind of erased objects, which describe no resource of their own. -/
def Erased.asKind : Kind Erased where
  identity := ⟨"DynamicObject", none⟩
  metadata := (·.metadata)
  withMetadata m o := { o with metadata := m }
  toJson? := Erased.toJson?
  reader := Erased.reader

namespace Kind

variable (K : Kind α)

/-- The object without its type; one that does not name its type gets the names of `r`. -/
def erase (r : ApiResource) (obj : α) : Except Json.ReadError Erased := do
  let v ← K.toJson? obj
  let o ← Erased.reader.ofJson v
  return o.stamp r

/-- The object that an erased one stands for. -/
def restore (o : Erased) : Except Json.ReadError α := do
  let v ← o.toJson?
  K.reader.ofJson v

/-- The labels of an object. -/
def labels (obj : α) : Labels :=
  (K.metadata obj).labelTable

end Kind
end ClusterKit
