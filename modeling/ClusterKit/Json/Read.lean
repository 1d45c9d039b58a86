/-
# Reading typed values

A reader takes a draft to a value of some type or to the first error that it
meets. Readers of texts, numbers and the like refuse a draft of another shape
without looking inside; readers of records take members in the order of the
text, each as soon as it comes.

`Reader.ofText` reads a whole text, behind which only blanks may stand;
`Reader.ofJson` reads a value, of which nothing but the shape can be wrong.

Key definitions: `Reader`, `Reader.value`, `Reader.record`, `Reader.ofText`, `Reader.ofJson`.
-/
import ClusterKit.Json.Draft
import ClusterKit.Outcome

namespace ClusterKit
namespace Json

/-- A way to read drafts as values of `α`. -/
abbrev Reader (α : Type u) := Draft → Except ReadError α

namespace Reader

/-! ### Passing over -/

mutual

/-- Pass over a value. -/
def skip : Draft → Except ReadError Unit
  | .scalar _ => .ok ()
  | .broken _ _ none => .ok ()
  | .broken _ _ (some e) => .error e
  | .list _ items close => skipItems close items
  | .fields _ members close => skipMembers close members

/-- Pass over the values of a list and its end. -/
def skipItems (close : Option ReadError) : List Draft → Except ReadError Unit
  | [] => match close with
    | none => .ok ()
    | some e => .error e
  | d :: ds => do skip d; skipItems close ds

/-- Pass over the members of an object and its end. -/
def skipMembers (close : Option ReadError) : List (Name × Draft) → Except ReadError Unit
  | [] => match close with
    | none => .ok ()
    | some e => .error e
  | (_, d) :: ms => do skip d; skipMembers close ms

end

/-! ### Any value -/

/-- The value of a scalar. -/
def scalarValue : Scalar → Json
  | .null => .null
  | .bool b => .bool b
  | .number n => .number n
  | .text s => .text s

mutual

/-- Read any value. -/
def value : Draft → Except ReadError Json
  | .scalar v => .ok (scalarValue v)
  | .broken _ e _ => .error e
  | .list deep items close => do
    if deep then throw .malformed
    let vs ← valueItems close items
    return .list vs
  | .fields deep members close => do
    if deep then throw .malformed
    let ms ← valueMembers close members
    return object ms

/-- Read the values of a list and its end. -/
def valueItems (close : Option ReadError) : List Draft → Except ReadError (List Json)
  | [] => match close with
    | none => .ok []
    | some e => .error e
  | d :: ds => do
    let v ← value d
    let vs ← valueItems close ds
    return v :: vs

/-- Read the members of an object and its end. -/
def valueMembers (close : Option ReadError) :
    List (Name × Draft) → Except ReadError (List (String × Json))
  | [] => match close with
    | none => .ok []
    | some e => .error e
  | (name, d) :: ms => do
    let k ← name.read
    let v ← value d
    let vs ← valueMembers close ms
    return (k, v) :: vs

end

mutual

theorem canonical_of_value : ∀ (d : Draft) {v : Json}, value d = .ok v → v.Canonical
  | .scalar s, v, h => by
    cases h
    cases s <;> exact trivial
  | .broken .., _, h => nomatch h
  | .list deep items close, v, h => by
    cases deep with
    | true => cases h
    | false =>
      obtain ⟨vs, hvs, h⟩ := bind_eq_ok.mp h
      cases h
      exact (canonical_list vs).mpr (canonical_of_valueItems items hvs)
  | .fields deep members close, v, h => by
    cases deep with
    | true => cases h
    | false =>
      obtain ⟨ms, hms, h⟩ := bind_eq_ok.mp h
      cases h
      exact canonical_object (canonical_of_valueMembers members hms)

theorem canonical_of_valueItems {close : Option ReadError} : ∀ (ds : List Draft) {vs : List Json},
    valueItems close ds = .ok vs → ∀ v ∈ vs, v.Canonical
  | [], _, h => by
    cases close with
    | none =>
      cases h
      exact nofun
    | some e => cases h
  | d :: ds, _, h => by
    obtain ⟨v, hv, h⟩ := bind_eq_ok.mp h
    obtain ⟨vs, hvs, h⟩ := bind_eq_ok.mp h
    cases h
    exact List.forall_mem_cons.mpr ⟨canonical_of_value d hv, canonical_of_valueItems ds hvs⟩

theorem canonical_of_valueMembers {close : Option ReadError} :
    ∀ (ms : List (Name × Draft)) {es : List (String × Json)},
      valueMembers close ms = .ok es → ∀ e ∈ es, e.2.Canonical
  | [], _, h => by
    cases close with
    | none =>
      cases h
      exact nofun
    | some e => cases h
  | (name, d) :: ms, _, h => by
    obtain ⟨k, -, h⟩ := bind_eq_ok.mp h
    obtain ⟨v, hv, h⟩ := bind_eq_ok.mp h
    obtain ⟨es, hes, h⟩ := bind_eq_ok.mp h
    cases h
    exact List.forall_mem_cons.mpr ⟨canonical_of_value d hv, canonical_of_valueMembers ms hes⟩

end

/-- Read any value, and see that it lists its members in order. -/
def canonical : Reader { v : Json // v.Canonical } := fun d =>
  match h : value d with
  | .ok v => .ok ⟨v, canonical_of_value d h⟩
  | .error e => .error e

/-! ### Scalars -/

/-- Read a text. -/
def text : Reader String
  | .scalar (.text s) => .ok s
  | .broken _ e _ => .error e
  | _ => .error .mismatch

/-- Read a truth value. -/
def flag : Reader Bool
  | .scalar (.bool b) => .ok b
  | .broken _ e _ => .error e
  | _ => .error .mismatch

/-- Read a whole number from `lo` to `hi`. -/
def whole (lo hi : Int) : Reader Int
  | .scalar (.number (.whole n)) => if lo ≤ n ∧ n ≤ hi then .ok n else .error .mismatch
  | .broken _ e _ => .error e
  | _ => .error .mismatch

/-- Read a number without sign of `bits` bits. -/
def unsigned (bits : Nat) : Reader Nat := fun d => do
  let n ← whole 0 (2 ^ bits - 1) d
  return n.toNat

/-- Read a number with sign of `bits` bits. -/
def signed (bits : Nat) : Reader Int :=
  whole (-(2 ^ (bits - 1))) (2 ^ (bits - 1) - 1)

/-- Read a number with sign of 64 bits. -/
def int64 : Reader Int64 := fun d => do
  let n ← signed 64 d
  return Int64.ofInt n

/-- Read null as nothing and all else with `r`. -/
def optional (r : Reader α) : Reader (Option α)
  | .scalar .null => .ok none
  | d => do
    let v ← r d
    return some v

/-! ### Lists and objects -/

/-- Read the parts of a list and its end. -/
def itemsOf (r : Reader α) (close : Option ReadError) : List Draft → Except ReadError (List α)
  | [] => match close with
    | none => .ok []
    | some e => .error e
  | d :: ds => do
    let v ← r d
    let vs ← itemsOf r close ds
    return v :: vs

/-- Read a list of values that `r` reads. -/
def items (r : Reader α) : Reader (List α)
  | .list deep ds close => if deep then .error .malformed else itemsOf r close ds
  | .broken _ e _ => .error e
  | _ => .error .mismatch

/-- Take members one by one, and then the end of the object. -/
def foldMembers (f : σ → String → Draft → Except ReadError σ) (close : Option ReadError) :
    List (Name × Draft) → σ → Except ReadError σ
  | [], s => match close with
    | none => .ok s
    | some e => .error e
  | (name, d) :: ms, s => do
    let k ← name.read
    let s ← f s k d
    foldMembers f close ms s

/-- Read an object by taking its members one by one. -/
def members (f : σ → String → Draft → Except ReadError σ) (s : σ) : Reader σ
  | .fields deep ms close => if deep then .error .malformed else foldMembers f close ms s
  | .broken _ e _ => .error e
  | _ => .error .mismatch

/-- Read an object as a table of values that `r` reads. -/
def table (r : Reader α) : Reader (Table String α) :=
  members (fun t k d => do
    let v ← r d
    return t.insert k v) .empty

/-! ### Records -/

/-- A field of a record: its name, and whether a list of the fields may end before it. -/
structure Field where
  name : String
  mayEnd : Bool
  deriving DecidableEq, Repr

/-- Take the field of one member: known names once, unknown ones not at all. -/
def takeField (fields : List Field) (read : String → Draft → σ → Except ReadError σ)
    (s : σ × List String) (k : String) (d : Draft) : Except ReadError (σ × List String) :=
  if fields.any (·.name == k) then
    if s.2.contains k then .error .mismatch
    else do
      let t ← read k d s.1
      return (t, k :: s.2)
  else do
    skip d
    return s

/-- Take the fields of a list in their order. -/
def takeInOrder (read : String → Draft → σ → Except ReadError σ) (close : Option ReadError) :
    List Field → List Draft → σ → Except ReadError σ
  | [], [], s => match close with
    | none => .ok s
    | some e => .error e
  | [], _ :: _, _ => .error .malformed
  | f :: fs, [], s => match close with
    | none => if f.mayEnd then takeInOrder read close fs [] s else .error .mismatch
    | some e => .error e
  | f :: fs, d :: ds, s => do
    let s ← read f.name d s
    takeInOrder read close fs ds s

/-- Read a record, given by an object or by the list of its fields: each field
that comes goes into the state, and `finish` makes the record of it. -/
def record (fields : List Field) (read : String → Draft → σ → Except ReadError σ) (init : σ)
    (finish : σ → Except ReadError α) : Reader α
  | .fields deep ms close =>
    if deep then .error .malformed
    else do
      let s ← foldMembers (takeField fields read) close ms (init, [])
      finish s.1
  | .list deep ds close =>
    if deep then .error .malformed
    else do
      let s ← takeInOrder read close fields ds init
      finish s
  | .broken _ e _ => .error e
  | .scalar _ => .error .mismatch

/-- The value of a field that has to be there. -/
def required : Option α → Except ReadError α
  | some v => .ok v
  | none => .error .mismatch

/-! ### Whole texts and values -/

/-- Read a draft that has been taken in whole beforehand. -/
def buffered (r : Reader α) : Reader α := fun d => do
  let _ ← value d
  match r d with
  | .ok v => .ok v
  | .error _ => .error .mismatch

/-- Read a document. -/
def ofDocument (r : Reader α) (doc : Document) : Except ReadError α := do
  let v ← r doc.root
  if doc.trailing then throw .malformed
  return v

/-- Read the characters of a whole text. -/
def ofChars (r : Reader α) (cs : List Char) : Except ReadError α :=
  r.ofDocument (Document.ofChars cs)

/-- Read a whole text. -/
def ofText (r : Reader α) (s : String) : Except ReadError α :=
  r.ofChars s.toList

/-- Read a value. -/
def ofJson (r : Reader α) (v : Json) : Except ReadError α :=
  match r (toDraft v) with
  | .ok a => .ok a
  | .error _ => .error .mismatch

end Reader

/-- The value of a whole text. -/
def parse (s : String) : Except ReadError Json :=
  Reader.ofText Reader.value s

/-- The value of bytes in UTF-8. -/
def parseBytes? (bs : List UInt8) : Option Json := do
  let cs ← Utf8.decode? bs
  (Reader.ofChars Reader.value cs).toOption

end Json
end ClusterKit
