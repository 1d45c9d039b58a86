/-
# Custom kinds

Kinds that describe no resource of their own and are written without the names
of their type. They are records: a field may come once only, a field that is
needed has to come, and unknown members are passed over.

Key definitions: `Widget.asKind`, `Party.asKind`, `Knife.asKind`, `Calf.asKind`.
-/
import ClusterKit.Object.Kind

namespace ClusterKit

/-! ### Widgets -/

/-- Something with a size. -/
structure Widget where
  metadata : ObjectMeta
  size : Nat
  deriving DecidableEq

namespace Widget

/-- The written widget. -/
def toJson (w : Widget) : Json :=
  .fields [("metadata", w.metadata.toJson), ("size", Json.ofNat w.size)]

/-- Take one field of a widget. -/
def takeField (k : String) (d : Json.Draft) (s : Option ObjectMeta × Nat) :
    Except Json.ReadError (Option ObjectMeta × Nat) :=
  if k = "metadata" then do
    let m ← ObjectMeta.reader d
    return (some m, s.2)
  else do
    let n ← Json.Reader.unsigned 32 d
    return (s.1, n)

/-- Read a widget, which needs metadata; it has no size unless it says one. -/
def reader : Json.Reader Widget :=
  Json.Reader.record [⟨"metadata", false⟩, ⟨"size", true⟩] takeField (none, 0) fun s => do
    let m ← Json.Reader.required s.1
    return ⟨m, s.2⟩

/-- The kind of widgets. -/
def asKind : Kind Widget where
  identity := ⟨"Widget", none⟩
  metadata := (·.metadata)
  withMetadata m w := { w with metadata := m }
  toJson? w := .ok w.toJson
  reader := reader

end Widget

/-! ### Parties -/

/-- A number of guests, perhaps with a host. -/
structure Party where
  metadata : ObjectMeta
  guests : Int
  host : Option String
  deriving DecidableEq

namespace Party

/-- A party of which not all fields have been read. -/
structure Fields where
  metadata : Option ObjectMeta
  guests : Option Int
  host : Option String

/-- The written party. -/
def toJson (p : Party) : Json :=
  .fields [("guests", Json.ofInt p.guests), ("host", Json.ofOption .text p.host),
    ("metadata", p.metadata.toJson)]

/-- Take one field of a party. -/
def takeField (k : String) (d : Json.Draft) (s : Fields) : Except Json.ReadError Fields :=
  if k = "metadata" then do
    let m ← ObjectMeta.reader d
    return { s with metadata := some m }
  else if k = "guests" then do
    let n ← Json.Reader.signed 64 d
    return { s with guests := some n }
  else do
    let h ← Json.Reader.optional Json.Reader.text d
    return { s with host := h }

/-- Read a party, which needs metadata and guests. -/
def reader : Json.Reader Party :=
  Json.Reader.record [⟨"metadata", false⟩, ⟨"guests", false⟩, ⟨"host", false⟩] takeField
    ⟨none, none, none⟩ fun s => do
    let m ← Json.Reader.required s.metadata
    let n ← Json.Reader.required s.guests
    return ⟨m, n, s.host⟩

/-- The kind of parties. -/
def asKind : Kind Party where
  identity := ⟨"Party", none⟩
  metadata := (·.metadata)
  withMetadata m p := { p with metadata := m }
  toJson? p := .ok p.toJson
  reader := reader

end Party

/-! ### Knives -/

/-- Something with edges. -/
structure Knife where
  metadata : ObjectMeta
  edges : List String
  deriving DecidableEq

namespace Knife

/-- The written knife. -/
def toJson (k : Knife) : Json :=
  .fields [("edges", Json.ofStrings k.edges), ("metadata", k.metadata.toJson)]

/-- Take one field of a knife. -/
def takeField (k : String) (d : Json.Draft) (s : Knife) : Except Json.ReadError Knife :=
  if k = "metadata" then do
    let m ← ObjectMeta.reader d
    return { s with metadata := m }
  else do
    let es ← Json.Reader.items Json.Reader.text d
    return { s with edges := es }

/-- Read a knife, which needs nothing. -/
def reader : Json.Reader Knife :=
  Json.Reader.record [⟨"metadata", true⟩, ⟨"edges", true⟩] takeField ⟨.empty, []⟩ .ok

/-- The kind of knives. -/
def asKind : Kind Knife where
  identity := ⟨"Knife", none⟩
  metadata := (·.metadata)
  withMetadata m k := { k with metadata := m }
  toJson? k := .ok k.toJson
  reader := reader

end Knife

/-! ### Calves -/

/-- Something that carries an item. -/
structure Calf (β : Type) where
  metadata : ObjectMeta
  item : β
  deriving DecidableEq

namespace Calf

/-- The written calf. -/
def toJson (item : β → Json) (c : Calf β) : Json :=
  .fields [("item", item c.item), ("metadata", c.metadata.toJson)]

/-- Take one field of a calf. -/
def takeField (r : Json.Reader β) (k : String) (d : Json.Draft)
    (s : Option ObjectMeta × Option β) : Except Json.ReadError (Option ObjectMeta × Option β) :=
  if k = "metadata" then do
    let m ← ObjectMeta.reader d
    return (some m, s.2)
  else do
    let i ← r d
    return (s.1, some i)

/-- Read a calf, which needs metadata and an item. -/
def reader (r : Json.Reader β) : Json.Reader (Calf β) :=
  Json.Reader.record [⟨"metadata", false⟩, ⟨"item", false⟩] (takeField r) (none, none) fun s => do
    let m ← Json.Reader.required s.1
    let i ← Json.Reader.required s.2
    return ⟨m, i⟩

/-- The kind of calves that carry what `item` writes and `r` reads. -/
def asKind (item : β → Json) (r : Json.Reader β) : Kind (Calf β) where
  identity := ⟨"Calf", none⟩
  metadata := (·.metadata)
  withMetadata m c := { c with metadata := m }
  toJson? c := .ok (c.toJson item)
  reader := reader r

end Calf
end ClusterKit
