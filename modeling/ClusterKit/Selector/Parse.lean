/-
# Reading label selectors

A blank text selects everything. Any other text is cut at the commas outside
of parentheses, and each part, trimmed, is a requirement: `!key`,
`key!=value`, `key==value`, `key=value`, `key in (values)`,
`key notin (values)` or `key`, tried in this order. Keys and values are
trimmed too. A defect names the first thing that is wrong.

Key definitions: `SelectorDefect`, `Requirement.parse`, `Selector.parse`.
-/
import ClusterKit.Selector.Basic
import ClusterKit.Text.Blank
import ClusterKit.Text.Quoted

namespace ClusterKit

/-- What is wrong with a text that is no selector. -/
inductive SelectorDefect
  | unbalanced
  | emptyRequirement
  | badKey (key : String)
  | badValue (value : String)
  | openSet (requirement : String)
  | emptySet (requirement : String)
  | unknownOperator (requirement : String)
  deriving DecidableEq, Repr

/-- What is said of the defect. -/
def SelectorDefect.reason : SelectorDefect → String
  | .unbalanced => "unbalanced parentheses"
  | .emptyRequirement => "empty requirement"
  | .badKey k => "invalid label key " ++ Text.quote k
  | .badValue v => "invalid label value " ++ Text.quote v
  | .openSet r => "expected ')' at the end of " ++ Text.quote r
  | .emptySet r => "set for " ++ Text.quote r ++ " must have at least one value"
  | .unknownOperator r => "expected 'in' or 'notin' in " ++ Text.quote r

/-- A text that is no selector. -/
structure SelectorError where
  selector : String
  defect : SelectorDefect
  deriving DecidableEq, Repr

/-- What is said of the text. -/
def SelectorError.message (e : SelectorError) : String :=
  "unable to parse label selector " ++ Text.quote e.selector ++ ": " ++ e.defect.reason

namespace Requirement

/-! ### Keys and values -/

/-- Whether a value may have `c`. -/
def isValueChar (c : Char) : Bool :=
  c.isAlphanum || c = '-' || c = '_' || c = '.'

/-- Whether a key may have `c`. -/
def isKeyChar (c : Char) : Bool :=
  isValueChar c || c = '/'

/-- Whether `cs` is a key. -/
def isKey (cs : List Char) : Bool :=
  !cs.isEmpty && cs.all isKeyChar

/-- Whether `cs` is a value. -/
def isValue (cs : List Char) : Bool :=
  cs.all isValueChar

/-- Read a key. -/
def parseKey (cs : List Char) : Except SelectorDefect String :=
  let k := Text.trim cs
  if isKey k then .ok (String.ofList k) else .error (.badKey (String.ofList k))

/-- Read a value. -/
def parseValue (cs : List Char) : Except SelectorDefect String :=
  let v := Text.trim cs
  if isValue v then .ok (String.ofList v) else .error (.badValue (String.ofList v))

/-! ### Cutting -/

/-- What stands before and after the first `c`. -/
def cut (c : Char) : List Char → Option (List Char × List Char)
  | [] => none
  | x :: xs => if x = c then some ([], xs) else (cut c xs).map fun p => (x :: p.1, p.2)

/-- What stands before and after the first `c` that `d` follows. -/
def cutPair (c d : Char) : List Char → Option (List Char × List Char)
  | x :: y :: xs =>
    if x = c ∧ y = d then some ([], xs)
    else (cutPair c d (y :: xs)).map fun p => (x :: p.1, p.2)
  | _ => none

/-- What stands between the commas. -/
def splitCommas : List Char → List (List Char)
  | [] => [[]]
  | c :: cs =>
    if c = ',' then [] :: splitCommas cs
    else
      match splitCommas cs with
      | [] => [[c]]
      | part :: parts => (c :: part) :: parts

/-- `cs` without the closing parenthesis at its end. -/
def dropClose? (cs : List Char) : Option (List Char) :=
  if cs.getLast? = some ')' then some cs.dropLast else none

/-! ### Requirements -/

/-- Read the set of the requirement `whole` from what stands before its opening
parenthesis and what stands after it. -/
def parseSet (whole before after : List Char) : Except SelectorDefect Requirement := do
  let some inside := dropClose? after
    | throw (.openSet (String.ofList whole))
  let values ← (splitCommas inside).mapM parseValue
  if values.all String.isEmpty then throw (.emptySet (String.ofList whole))
  match Text.words before with
  | [key, ['i', 'n']] => return .oneOf (← parseKey key) (TextSet.ofList values)
  | [key, ['n', 'o', 't', 'i', 'n']] => return .noneOf (← parseKey key) (TextSet.ofList values)
  | _ => throw (.unknownOperator (String.ofList whole))

/-- Read a requirement that is trimmed already. -/
def parseTrimmed (cs : List Char) : Except SelectorDefect Requirement :=
  match cs with
  | [] => .error .emptyRequirement
  | '!' :: key => do
    let k ← parseKey key
    return .absent k
  | _ =>
    match cutPair '!' '=' cs with
    | some (key, value) => do
      let k ← parseKey key
      let v ← parseValue value
      return .notEqual k v
    | none =>
      match (cutPair '=' '=' cs).or (cut '=' cs) with
      | some (key, value) => do
        let k ← parseKey key
        let v ← parseValue value
        return .equal k v
      | none =>
        match cut '(' cs with
        | some (before, after) => parseSet cs before after
        | none => do
          let k ← parseKey cs
          return .present k

/-- Read a requirement. -/
def parse (cs : List Char) : Except SelectorDefect Requirement :=
  parseTrimmed (Text.trim cs)

end Requirement

namespace Selector

/-- The parts between the commas outside of parentheses, if these are balanced;
`depth` of them are open. -/
def splitTop (depth : Nat) : List Char → Option (List (List Char))
  | [] => if depth = 0 then some [[]] else none
  | c :: cs =>
    if c = ',' ∧ depth = 0 then (splitTop 0 cs).map ([] :: ·)
    else if c = ')' ∧ depth = 0 then none
    else
      let inner := if c = '(' then depth + 1 else if c = ')' then depth - 1 else depth
      match splitTop inner cs with
      | some (part :: parts) => some ((c :: part) :: parts)
      | _ => none

/-- The selector that characters write, or their first defect. -/
def parseChars (cs : List Char) : Except SelectorDefect Selector :=
  if (Text.trim cs).isEmpty then .ok everything
  else
    match splitTop 0 cs with
    | none => .error .unbalanced
    | some parts => do
      let rs ← parts.mapM Requirement.parse
      return ⟨rs⟩

/-- The selector that a text writes. -/
def parse (s : String) : Except SelectorError Selector :=
  match parseChars s.toList with
  | .ok selector => .ok selector
  | .error d => .error ⟨s, d⟩

/-- The selector that an optional text writes; none selects everything. -/
def parseOptional : Option String → Except SelectorError Selector
  | none => .ok everything
  | some s => parse s

end Selector
end ClusterKit
