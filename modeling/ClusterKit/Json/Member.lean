/-
# Members of objects

Loose access to the members of JSON objects: a member that is missing, null or
of another sort reads as empty, false or nothing.

Key definitions: `Json.field`, `Json.str`, `Json.items`, `Json.texts`, `Json.flag`,
`Json.text?`, `Json.int?`, `Json.nat?`.
-/
import ClusterKit.Json.Value

namespace ClusterKit
namespace Json

/-- The member `k`, or null. -/
def field (j : Json) (k : String) : Json :=
  (j.member? k).getD .null

/-- Whether there is a member `k` other than null. -/
def has (j : Json) (k : String) : Bool :=
  j.field k != .null

/-- The text that a value is. -/
def asText? : Json → Option String
  | .text s => some s
  | _ => none

/-- The items of a list, of which other values have none. -/
def asItems : Json → List Json
  | .list vs => vs
  | _ => []

/-- The text at `k`. -/
def text? (j : Json) (k : String) : Option String :=
  (j.field k).asText?

/-- The text at `k`, or the empty one. -/
def str (j : Json) (k : String) : String :=
  (j.text? k).getD ""

/-- The text of the item number `i`, or the empty one. -/
def part (j : Json) (i : Nat) : String :=
  ((j.asItems[i]?).bind asText?).getD ""

/-- The items at `k`. -/
def items (j : Json) (k : String) : List Json :=
  (j.field k).asItems

/-- The items of the list at `k`. -/
def items? (j : Json) (k : String) : Option (List Json) :=
  match j.field k with
  | .list vs => some vs
  | _ => none

/-- The object at `k`. -/
def object? (j : Json) (k : String) : Option Json :=
  match j.field k with
  | .fields ms => some (.fields ms)
  | _ => none

/-- The items at `k` that are texts. -/
def texts (j : Json) (k : String) : List String :=
  (j.items k).filterMap asText?

/-- Whether there is true at `k`. -/
def flag (j : Json) (k : String) : Bool :=
  j.field k == .bool true

/-- The whole number that a value is. -/
def asWhole? : Json → Option Int
  | .number (.whole n) => some n
  | _ => none

/-- The whole number at `k` if it fits into 64 bits with a sign. -/
def int? (j : Json) (k : String) : Option Int :=
  (j.field k).asWhole?.filter fun n => -2 ^ (63 : Nat) ≤ n ∧ n < 2 ^ (63 : Nat)

/-- The whole number at `k` if it is not negative. -/
def nat? (j : Json) (k : String) : Option Nat :=
  ((j.field k).asWhole?.filter (0 ≤ ·)).map Int.toNat

/-- The object with further members. -/
def extend (j : Json) (ms : List (String × Json)) : Json :=
  match j with
  | .fields old => object (old ++ ms)
  | j => j

end Json
end ClusterKit
