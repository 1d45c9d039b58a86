/-
# Changes

What a typed watch tells: an object of the watched type was added, modified or
deleted.

Key definitions: `Change`, `Change.object`.
-/

namespace ClusterKit

/-- A change to an object. -/
inductive Change (α : Type u)
  | added (obj : α)
  | modified (obj : α)
  | deleted (obj : α)
  deriving DecidableEq, Repr

namespace Change

/-- The object that was changed. -/
def object : Change α → α
  | .added o => o
  | .modified o => o
  | .deleted o => o

/-- The written name of the change. -/
def name : Change α → String
  | .added _ => "Added"
  | .modified _ => "Modified"
  | .deleted _ => "Deleted"

end Change
end ClusterKit
