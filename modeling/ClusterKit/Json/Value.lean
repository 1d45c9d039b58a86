/-
# JSON values

A value is null, a truth value, a number, a text, a list or an object. The
members of an object are kept in ascending order of their names, one per name;
`Json.object` builds such an object from any list of members, of which the
last with a name counts, and `Json.Canonical` says that every object inside a
value has this form.

Key definitions: `Json`, `Json.Number`, `Json.object`, `Json.member?`, `Json.Canonical`.
-/
import ClusterKit.Table
import ClusterKit.Json.Decimal

namespace ClusterKit

namespace Json

/-- A number: a whole one of 64 bits, or a double by its shortest decimal. -/
inductive Number
  | whole (n : Int)
  | real (d : Decimal)
  deriving DecidableEq, Repr, Inhabited

end Json

/-- A JSON value. -/
inductive Json
  | null
  | bool (b : Bool)
  | number (n : Json.Number)
  | text (s : String)
  | list (items : List Json)
  | fields (members : List (String × Json))
  deriving Repr, Inhabited

namespace Json

/-! ### Equality -/

mutual

/-- Whether two values are the same. -/
def same : Json → Json → Bool
  | .null, .null => true
  | .bool a, .bool b => a == b
  | .number a, .number b => a == b
  | .text a, .text b => a == b
  | .list a, .list b => sameItems a b
  | .fields a, .fields b => sameMembers a b
  | _, _ => false

/-- Whether two lists of values are the same. -/
def sameItems : List Json → List Json → Bool
  | [], [] => true
  | a :: as, b :: bs => same a b && sameItems as bs
  | _, _ => false

/-- Whether two lists of members are the same. -/
def sameMembers : List (String × Json) → List (String × Json) → Bool
  | [], [] => true
  | (k, a) :: as, (l, b) :: bs => k == l && same a b && sameMembers as bs
  | _, _ => false

end

mutual

theorem same_iff : ∀ a b : Json, same a b = true ↔ a = b
  | .null, b => by cases b <;> simp [same]
  | .bool _, b => by cases b <;> simp [same]
  | .number _, b => by cases b <;> simp [same]
  | .text _, b => by cases b <;> simp [same]
  | .list as, b => by cases b <;> simp [same, sameItems_iff as]
  | .fields as, b => by cases b <;> simp [same, sameMembers_iff as]

theorem sameItems_iff : ∀ as bs : List Json, sameItems as bs = true ↔ as = bs
  | [], bs => by cases bs <;> simp [sameItems]
  | a :: as, bs => by cases bs <;> simp [sameItems, same_iff a, sameItems_iff as]

theorem sameMembers_iff : ∀ as bs : List (String × Json), sameMembers as bs = true ↔ as = bs
  | [], bs => by cases bs <;> simp [sameMembers]
  | (k, a) :: as, bs => by
    cases bs <;> simp [sameMembers, same_iff a, sameMembers_iff as, Prod.ext_iff]

end

instance : DecidableEq Json := fun a b =>
  decidable_of_iff (same a b = true) (same_iff a b)

/-! ### Objects -/

/-- The object with the given members, of which the last with a name counts. -/
def object (members : List (String × Json)) : Json :=
  .fields (Entries.ofList members)

/-- The member `name` of an object. -/
def member? (name : String) : Json → Option Json
  | .fields ms => Entries.get? name ms
  | _ => none

/-- The value with `v` at member `name`, if it is an object. -/
def set (name : String) (v : Json) : Json → Json
  | .fields ms => .fields (Entries.insert name v ms)
  | j => j

/-- A whole number. -/
def ofNat (n : Nat) : Json :=
  .number (.whole n)

/-- A whole number. -/
def ofInt (n : Int) : Json :=
  .number (.whole n)

/-- A whole number of 64 bits. -/
def ofInt64 (n : Int64) : Json :=
  .number (.whole n.toInt)

/-- Null for nothing. -/
def ofOption (f : α → Json) : Option α → Json
  | none => .null
  | some a => f a

/-- A list of texts. -/
def ofStrings (ss : List String) : Json :=
  .list (ss.map .text)

/-- The object of a table of texts. -/
def ofTexts (t : Table String String) : Json :=
  .fields (t.toList.map fun e => (e.1, .text e.2))

mutual

/-- Every object inside the value lists its members in ascending order. -/
def Canonical : Json → Prop
  | .list items => CanonicalItems items
  | .fields members => Entries.Ascending members ∧ CanonicalMembers members
  | _ => True

/-- All values of a list are canonical. -/
def CanonicalItems : List Json → Prop
  | [] => True
  | v :: vs => Canonical v ∧ CanonicalItems vs

/-- The values of all members are canonical. -/
def CanonicalMembers : List (String × Json) → Prop
  | [] => True
  | (_, v) :: ms => Canonical v ∧ CanonicalMembers ms

end

theorem canonicalItems_iff (vs : List Json) : CanonicalItems vs ↔ ∀ v ∈ vs, v.Canonical := by
  induction vs with
  | nil => simp [CanonicalItems]
  | cons v vs ih => simp [CanonicalItems, ih]

theorem canonicalMembers_iff (ms : List (String × Json)) :
    CanonicalMembers ms ↔ ∀ e ∈ ms, e.2.Canonical := by
  induction ms with
  | nil => simp [CanonicalMembers]
  | cons e ms ih => simp [CanonicalMembers, ih]

theorem canonical_fields (ms : List (String × Json)) :
    (Json.fields ms).Canonical ↔ Entries.Ascending ms ∧ ∀ e ∈ ms, e.2.Canonical := by
  rw [← canonicalMembers_iff]
  exact Iff.rfl

theorem canonical_list (vs : List Json) : (Json.list vs).Canonical ↔ ∀ v ∈ vs, v.Canonical := by
  rw [← canonicalItems_iff]
  exact Iff.rfl

theorem canonical_object {ms : List (String × Json)} (h : ∀ e ∈ ms, e.2.Canonical) :
    (object ms).Canonical := by
  refine (canonical_fields _).mpr ⟨Entries.ascending_ofList ms, ?_⟩
  intro e he
  exact h e (Entries.mem_ofList he)

end Json
end ClusterKit
