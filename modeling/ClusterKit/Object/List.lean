/-
# Lists of objects

A list has metadata, by default none, and its items, which have to be there.

Key definitions: `ObjectList`, `ObjectList.reader`, `ObjectList.toJson?`.
-/
import ClusterKit.Object.Kind

namespace ClusterKit

/-- A list of objects. -/
structure ObjectList (α : Type u) where
  metadata : ListMeta
  items : List α
  deriving DecidableEq

namespace ObjectList

/-- The list with each item changed by `f`. -/
def map (f : α → β) (l : ObjectList α) : ObjectList β :=
  ⟨l.metadata, l.items.map f⟩

/-- The written list. -/
def toJson? (f : α → Except Json.ReadError Json) (l : ObjectList α) :
    Except Json.ReadError Json := do
  let items ← l.items.mapM f
  return .fields [("items", .list items), ("metadata", l.metadata.toJson)]

/-- Take one part of a list. -/
def takeField (r : Json.Reader α) (k : String) (d : Json.Draft)
    (s : ListMeta × Option (List α)) : Except Json.ReadError (ListMeta × Option (List α)) :=
  if k = "metadata" then do
    let m ← ListMeta.reader d
    return (m, s.2)
  else do
    let items ← Json.Reader.items r d
    return (s.1, some items)

/-- Read a list whose items `r` reads. -/
def reader (r : Json.Reader α) : Json.Reader (ObjectList α) :=
  Json.Reader.record [⟨"metadata", true⟩, ⟨"items", false⟩] (takeField r) (.empty, none) fun s => do
    let items ← Json.Reader.required s.2
    return ⟨s.1, items⟩

end ObjectList
end ClusterKit
