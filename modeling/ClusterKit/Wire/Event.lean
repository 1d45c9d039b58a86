/-
# Watch events in JSON

An event is an object with the event's type at `type` and what it carries at
`object`, in either order and each once, among members that are passed over,
or the list of the two. What comes before the type is held back until the type
says how to read it. The type is its name, or in an object also an object with
null at its name.

Key definitions: `WatchEvent.toJson?`, `WatchEvent.reader`.
-/
import ClusterKit.Watch.Event
import ClusterKit.Wire.Erased
import ClusterKit.Wire.Status

namespace ClusterKit

/-! ### Event types -/

namespace EventType

/-- The type with a name that has been read. -/
def ofName (s : String) : Except Json.ReadError EventType :=
  match ofName? s with
  | some t => .ok t
  | none => .error .mismatch

/-- Read null. -/
def unit : Json.Reader Unit
  | .scalar .null => .ok ()
  | .broken _ e _ => .error e
  | _ => .error .mismatch

/-- Read the type of an event that is its name. -/
def nameReader : Json.Reader EventType := fun d => do
  let s ← Json.Reader.text d
  ofName s

/-- Read the type of an event. -/
def reader : Json.Reader EventType
  | .scalar (.text s) => ofName s
  | .scalar _ => .error .malformed
  | .broken e _ _ => .error e
  | .list .. => .error .malformed
  | .fields deep ms close => do
    if deep then throw .malformed
    match ms, close with
    | [], none => throw .malformed
    | [], some e => throw e
    | (name, d) :: ms, close => do
      let s ← name.read
      let t ← ofName s
      unit d
      match ms, close with
      | [], none => return t
      | [], some e => throw e
      | _ :: _, _ => throw .malformed

end EventType

/-! ### Bookmarks -/

namespace Bookmark

/-- The written bookmark. -/
def toJson (b : Bookmark) : Json :=
  .fields [("apiVersion", .text b.types.apiVersion), ("kind", .text b.types.kind),
    ("metadata", .fields [("resourceVersion", .text b.resourceVersion)])]

/-- Read the metadata of a bookmark, which are a version. -/
def version : Json.Reader String :=
  Json.Reader.record [⟨"resourceVersion", false⟩]
    (fun _ d _ => do
      let v ← Json.Reader.text d
      return some v)
    none Json.Reader.required

/-- A bookmark of which not all members have been read; the last one comes first. -/
structure Members where
  version : Option String
  others : List (String × Json)

/-- Take one member. -/
def takeMember (s : Members) (k : String) (d : Json.Draft) : Except Json.ReadError Members :=
  if k = "metadata" then
    match s.version with
    | some _ => .error .mismatch
    | none => do
      let v ← version d
      return { s with version := some v }
  else do
    let v ← Json.Reader.value d
    return { s with others := (k, v) :: s.others }

/-- Read a bookmark. -/
def reader : Json.Reader Bookmark := fun d => do
  let s ← Json.Reader.members takeMember ⟨none, []⟩ d
  let version ← Json.Reader.required s.version
  let types ← Json.Reader.required (Erased.takeTypes none none s.others.reverse).1
  return ⟨types, version⟩

end Bookmark

/-! ### Events -/

namespace WatchEvent

/-- What the event carries as it is written. -/
def payload? (f : α → Except Json.ReadError Json) : WatchEvent α → Except Json.ReadError Json
  | .added o => f o
  | .modified o => f o
  | .deleted o => f o
  | .bookmark b => .ok b.toJson
  | .error s => .ok s.toJson

/-- The written event. -/
def toJson? (f : α → Except Json.ReadError Json) (e : WatchEvent α) :
    Except Json.ReadError Json := do
  let v ← payload? f e
  return .fields [("object", v), ("type", .text e.type.name)]

/-- Read what an event of a type carries. -/
def payloadReader (r : Json.Reader α) : EventType → Json.Reader (WatchEvent α)
  | .added => fun d => do
    let o ← r d
    return .added o
  | .modified => fun d => do
    let o ← r d
    return .modified o
  | .deleted => fun d => do
    let o ← r d
    return .deleted o
  | .bookmark => fun d => do
    let b ← Bookmark.reader d
    return .bookmark b
  | .error => fun d => do
    let s ← Status.reader d
    return .error s

/-- How much of an event has been read. -/
inductive Progress (α : Type u)
  | nothing
  | typed (t : EventType)
  | held (d : Json.Draft)
  | complete (e : WatchEvent α)

/-- Take one member of an event. -/
def takeMember (r : Json.Reader α) (s : Progress α) (k : String) (d : Json.Draft) :
    Except Json.ReadError (Progress α) :=
  if k = "type" then
    match s with
    | .nothing => do
      let t ← EventType.reader d
      return .typed t
    | .held content => do
      let t ← EventType.reader d
      let e ← Json.Reader.buffered (payloadReader r t) content
      return .complete e
    | _ => .error .mismatch
  else if k = "object" then
    match s with
    | .nothing => do
      let _ ← Json.Reader.value d
      return .held d
    | .typed t => do
      let e ← payloadReader r t d
      return .complete e
    | _ => .error .mismatch
  else do
    Json.Reader.skip d
    return s

/-- Read an event from the list of its two parts. -/
def ofParts (r : Json.Reader α) (close : Option Json.ReadError) :
    List Json.Draft → Except Json.ReadError (WatchEvent α)
  | [] => .error (close.getD .mismatch)
  | t :: ds => do
    let t ← EventType.nameReader t
    match ds with
    | [] => throw (close.getD .mismatch)
    | [d] => do
      let e ← payloadReader r t d
      match close with
      | none => return e
      | some e => throw e
    | d :: _ :: _ => do
      let _ ← payloadReader r t d
      throw .malformed

/-- Read an event whose objects `r` reads. -/
def reader (r : Json.Reader α) : Json.Reader (WatchEvent α)
  | .list deep ds close => if deep then .error .malformed else ofParts r close ds
  | d => do
    let s ← Json.Reader.members (takeMember r) .nothing d
    match s with
    | .complete e => return e
    | _ => throw .mismatch

end WatchEvent
end ClusterKit
