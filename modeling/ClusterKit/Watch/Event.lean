/-
# Watch events

A watch tells of objects that were added, modified or deleted. Between these
events come bookmarks, which only say how far the watch has got, and errors.

Key definitions: `WatchEvent`, `WatchEvent.object?`, `WatchEvent.map`.
-/
import ClusterKit.Object.Erased
import ClusterKit.Status

namespace ClusterKit

/-- What an event is about. -/
inductive EventType
  | added
  | modified
  | deleted
  | bookmark
  | error
  deriving DecidableEq, Repr

namespace EventType

/-- The written name. -/
def name : EventType → String
  | .added => "ADDED"
  | .modified => "MODIFIED"
  | .deleted => "DELETED"
  | .bookmark => "BOOKMARK"
  | .error => "ERROR"

/-- The type with a written name. -/
def ofName? : String → Option EventType
  | "ADDED" => some .added
  | "MODIFIED" => some .modified
  | "DELETED" => some .deleted
  | "BOOKMARK" => some .bookmark
  | "ERROR" => some .error
  | _ => none

end EventType

/-- How far a watch has got. -/
structure Bookmark where
  types : TypeMeta
  resourceVersion : String
  deriving DecidableEq, Repr

/-- An event of a watch. -/
inductive WatchEvent (α : Type u)
  | added (obj : α)
  | modified (obj : α)
  | deleted (obj : α)
  | bookmark (b : Bookmark)
  | error (s : Status)
  deriving DecidableEq

namespace WatchEvent

/-- What the event is about. -/
def type : WatchEvent α → EventType
  | .added _ => .added
  | .modified _ => .modified
  | .deleted _ => .deleted
  | .bookmark _ => .bookmark
  | .error _ => .error

/-- The object of an added, modified or deleted one. -/
def object? : WatchEvent α → Option α
  | .added o => some o
  | .modified o => some o
  | .deleted o => some o
  | .bookmark _ => none
  | .error _ => none

/-- The event with its object changed by `f`. -/
def map (f : α → β) : WatchEvent α → WatchEvent β
  | .added o => .added (f o)
  | .modified o => .modified (f o)
  | .deleted o => .deleted (f o)
  | .bookmark b => .bookmark b
  | .error s => .error s

/-- The form that shows what the event is about. -/
def debug : WatchEvent α → String
  | .added _ => "Added event"
  | .modified _ => "Modified event"
  | .deleted _ => "Deleted event"
  | .bookmark _ => "Bookmark event"
  | .error s => "Error event: " ++ s.debug

end WatchEvent
end ClusterKit
