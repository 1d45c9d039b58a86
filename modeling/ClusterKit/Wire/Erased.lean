/-
# Erased objects in JSON

An erased object is written as the names of its type, its metadata and then
its data, whose members take the place of earlier ones. On reading, `metadata`
is metadata and may come once, and all other members are data, except for the
names of the type: these are looked at in the order in which they come until
one is no text or comes again. Two texts are the names of the type, and with
anything else there are none and what has been looked at is dropped.

Key definitions: `Erased.toJson?`, `Erased.takeTypes`, `Erased.reader`.
-/
import ClusterKit.Object.Erased
import ClusterKit.Wire.Meta

namespace ClusterKit
namespace Erased

/-! ### Writing -/

/-- The members that name a type. -/
def typeMembers (types : Option TypeMeta) : List (String × Json) :=
  match types with
  | none => []
  | some t => [("apiVersion", .text t.apiVersion), ("kind", .text t.kind)]

/-- The members that data stand for. -/
def dataMembers : Json → Except Json.ReadError (List (String × Json))
  | .null => .ok []
  | .fields ms => .ok ms
  | _ => .error .mismatch

/-- The written object; data that are neither an object nor null cannot be written. -/
def toJson? (o : Erased) : Except Json.ReadError Json := do
  let data ← dataMembers o.data
  return Json.object (typeMembers o.types ++ [("metadata", o.metadata.toJson)] ++ data)

/-! ### Reading -/

/-- The names of the type among members, when some have been found already, and
the members that are left. -/
def takeTypes (apiVersion kind : Option String) :
    List (String × Json) → Option TypeMeta × List (String × Json)
  | [] =>
    match apiVersion, kind with
    | some v, some k => (some ⟨v, k⟩, [])
    | _, _ => (none, [])
  | (name, value) :: ms =>
    if name = "apiVersion" then
      match apiVersion, value with
      | none, .text s => takeTypes (some s) kind ms
      | _, _ => (none, ms)
    else if name = "kind" then
      match kind, value with
      | none, .text s => takeTypes apiVersion (some s) ms
      | _, _ => (none, ms)
    else
      let (types, rest) := takeTypes apiVersion kind ms
      (types, (name, value) :: rest)

/-- An object of which not all members have been read; the last one comes first. -/
structure Members where
  metadata : Option ObjectMeta
  others : List (String × Json)

/-- Take one member. -/
def takeMember (s : Members) (k : String) (d : Json.Draft) : Except Json.ReadError Members :=
  if k = "metadata" then
    match s.metadata with
    | some _ => .error .mismatch
    | none => do
      let m ← ObjectMeta.reader d
      return { s with metadata := some m }
  else do
    let v ← Json.Reader.value d
    return { s with others := (k, v) :: s.others }

/-- The object of all its members. -/
def ofMembers (s : Members) : Erased :=
  let (types, data) := takeTypes none none s.others.reverse
  ⟨types, s.metadata.getD .empty, Json.object data⟩

/-- Read an object. -/
def reader : Json.Reader Erased := fun d => do
  let s ← Json.Reader.members takeMember ⟨none, []⟩ d
  return ofMembers s

end Erased
end ClusterKit
