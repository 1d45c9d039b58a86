/-
# Label selectors

A selector is a list of requirements on the labels of an object, all of which
have to hold; the one without requirements selects everything. It is written
as the requirements with commas between them.

Key definitions: `Requirement`, `Selector`, `Selector.selects`, `Selector.text`.
-/
import ClusterKit.Table

namespace ClusterKit

/-- The labels of an object. -/
abbrev Labels := Table String String

/-- A set of texts in ascending order. -/
abbrev TextSet := Table String Unit

namespace TextSet

/-- The set of the members of a list. -/
def ofList (xs : List String) : TextSet :=
  Table.ofList (xs.map fun x => (x, ()))

/-- The members in ascending order. -/
def toList (s : TextSet) : List String :=
  s.entries.map (·.1)

end TextSet

/-- A requirement on the label `key`. -/
inductive Requirement
  | oneOf (key : String) (values : TextSet)
  | noneOf (key : String) (values : TextSet)
  | equal (key value : String)
  | notEqual (key value : String)
  | present (key : String)
  | absent (key : String)
  deriving DecidableEq

namespace Requirement

/-- Whether labels meet the requirement; a label that is absent is none of any
values and differs from every value. -/
def holds (labels : Labels) : Requirement → Bool
  | .oneOf k vs =>
    match labels.get? k with
    | some v => vs.contains v
    | none => false
  | .noneOf k vs =>
    match labels.get? k with
    | some v => !vs.contains v
    | none => true
  | .equal k v => labels.get? k = some v
  | .notEqual k v => labels.get? k ≠ some v
  | .present k => labels.contains k
  | .absent k => !labels.contains k

/-- The written form. -/
def text : Requirement → String
  | .oneOf k vs => k ++ " in (" ++ ",".intercalate vs.toList ++ ")"
  | .noneOf k vs => k ++ " notin (" ++ ",".intercalate vs.toList ++ ")"
  | .equal k v => k ++ "=" ++ v
  | .notEqual k v => k ++ "!=" ++ v
  | .present k => k
  | .absent k => "!" ++ k

end Requirement

/-- Requirements that all have to hold. -/
structure Selector where
  requirements : List Requirement
  deriving DecidableEq

namespace Selector

/-- The selector of all objects. -/
def everything : Selector :=
  ⟨[]⟩

/-- The selector of the objects that have all the given labels. -/
def ofLabels (labels : Labels) : Selector :=
  ⟨labels.toList.map fun e => .equal e.1 e.2⟩

/-- Whether it has no requirements. -/
def selectsAll (s : Selector) : Bool :=
  s.requirements.isEmpty

/-- Whether labels meet all requirements. -/
def selects (s : Selector) (labels : Labels) : Bool :=
  s.requirements.all (·.holds labels)

/-- The written form. -/
def text (s : Selector) : String :=
  ",".intercalate (s.requirements.map Requirement.text)

end Selector
end ClusterKit
