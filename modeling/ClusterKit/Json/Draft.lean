/-
# Drafts

A draft is what the tokens of a text say before anyone asks for a shape: a
tree in the order of the text, in which whatever cannot be read stays in its
place. A reader walks a draft from the front and stops at the first thing that
it cannot take, so that a wrong shape early in a text wins over a broken token
later, and the other way round.

Key definitions: `Draft`, `Document`, `Document.ofTokens`, `Json.toDraft`.
-/
import ClusterKit.Json.Token

namespace ClusterKit
namespace Json

/-- What stands where a member's name begins: a text, or something that cannot be
read as one. -/
inductive Name
  | text (s : String)
  | broken (e : ReadError)
  deriving DecidableEq, Repr

/-- The name, if it can be read. -/
def Name.read : Name → Except ReadError String
  | .text s => .ok s
  | .broken e => .error e

/-- A value as it stands in a text. What is broken has its error for a reader
of variant names, for a reader of values, and perhaps also for one that passes
over it. A list or object is `deep` when it lies further inside than a reader
goes, and may end in an error in place of its closing mark. -/
inductive Draft
  | scalar (v : Scalar)
  | broken (name value : ReadError) (skip : Option ReadError)
  | list (deep : Bool) (items : List Draft) (close : Option ReadError)
  | fields (deep : Bool) (members : List (Name × Draft)) (close : Option ReadError)
  deriving Repr

namespace Draft

/-- The place of something that no reader gets past. -/
def dead (e : ReadError) : Draft :=
  .broken e e (some e)

end Draft

/-- A whole text: its value, and whether anything follows it. -/
structure Document where
  root : Draft
  trailing : Bool
  deriving Repr

namespace Document

/-- How many levels of lists and objects a reader goes down. -/
def maxDepth : Nat := 127

/-- A list or object that is not closed yet, its last part first. -/
inductive Frame
  | list (deep : Bool) (items : List Draft)
  | fields (deep : Bool) (members : List (Name × Draft)) (awaiting : Option Name)
  deriving Repr

/-- What the next token has to be. -/
inductive Expect
  | value
  | valueOrClose
  | comma
  | name
  | nameOrClose
  | colon
  deriving DecidableEq, Repr

/-- A text so far: the open lists and objects, the innermost first. -/
structure State where
  frames : List Frame
  expect : Expect
  done : Option Draft
  trailing : Bool
  deriving Repr

namespace State

/-- No token yet. -/
def init : State :=
  ⟨[], .value, none, false⟩

/-- The open frame with `d` as its next part. -/
def fill (d : Draft) : Frame → Frame
  | .list deep items => .list deep (d :: items)
  | .fields deep ms (some k) => .fields deep ((k, d) :: ms) none
  | .fields deep ms none => .fields deep ms none

/-- The draft of a frame that ends with `close`. -/
def shut (close : Option ReadError) : Frame → Draft
  | .list deep items => .list deep items.reverse close
  | .fields deep ms _ => .fields deep ms.reverse close

/-- The draft of nested frames that all end with `e`, around `d`. -/
def wrap (e : ReadError) (d : Draft) : List Frame → Draft
  | [] => d
  | f :: fs => wrap e (shut (some e) (fill d f)) fs

/-- Put a finished value in its place. -/
def place (s : State) (d : Draft) : State :=
  match s.frames with
  | [] => { s with done := some d }
  | f :: fs => { s with frames := fill d f :: fs, expect := .comma }

/-- Give up for `e` at the place of a value. -/
def lose (s : State) (e : ReadError) (d : Draft) : State :=
  { s with done := some (wrap e d s.frames) }

/-- Give up for `e`, wherever the text stands. Behind a comma something was to
come, a value or a member, and it is lost. -/
def stop (s : State) (e : ReadError) : State :=
  match s.expect, s.frames with
  | .value, _ => s.lose e (Draft.dead e)
  | .colon, _ => s.lose e (Draft.dead e)
  | .name, .fields deep ms _ :: fs =>
    { s with frames := .fields deep ms (some (.broken e)) :: fs }.lose e (Draft.dead e)
  | _, f :: fs => { s with done := some (wrap e (shut (some e) f) fs) }
  | _, [] => { s with done := some (Draft.dead e) }

/-- Open a list or object. -/
def push (s : State) (frame : Bool → Frame) (expect : Expect) : State :=
  { s with frames := frame (decide (maxDepth ≤ s.frames.length)) :: s.frames, expect := expect }

/-- Close the innermost list or object. -/
def pop (s : State) : State :=
  match s.frames with
  | [] => s.stop .malformed
  | f :: fs => { s with frames := fs }.place (shut none f)

/-- A token where a value begins. -/
def takeValue (s : State) : Token → State
  | .scalar v => s.place (.scalar v)
  | .broken quoted v none => s.place (.broken (if quoted then v else .malformed) v none)
  | .broken quoted v (some e) =>
    s.lose e (.broken (if quoted then v else .malformed) v (some e))
  | .mark c =>
    if c = '[' then s.push (.list · []) .valueOrClose
    else if c = '\x7b' then s.push (.fields · [] none) .nameOrClose
    else s.lose .malformed (Draft.dead .malformed)

/-- The state that awaits the value of member `k`. -/
def await (s : State) (k : Name) : State :=
  match s.frames with
  | .fields deep ms _ :: fs => { s with frames := .fields deep ms (some k) :: fs, expect := .colon }
  | _ => s.stop .malformed

/-- Give up for `e` at the place of a member's name `k`. -/
def loseName (s : State) (k : Name) (e : ReadError) : State :=
  (s.await k).lose e (Draft.dead e)

/-- A token where the name of a member begins. -/
def takeName (s : State) : Token → State
  | .scalar (.text k) => s.await (.text k)
  | .broken true v none => s.await (.broken v)
  | .broken true v (some e) => s.loseName (.broken v) e
  | _ => s.loseName (.broken .malformed) .malformed

/-- A token between two parts of a list or object. -/
def takeComma (s : State) (t : Token) : State :=
  match t, s.frames with
  | .mark ',', .list .. :: _ => { s with expect := .value }
  | .mark ']', .list .. :: _ => s.pop
  | .mark ',', .fields .. :: _ => { s with expect := .name }
  | .mark '\x7d', .fields .. :: _ => s.pop
  | _, _ => s.stop .malformed

/-- The state after one more token. -/
def step (s : State) (t : Token) : State :=
  if s.done.isSome then { s with trailing := true }
  else
    match s.expect with
    | .value => s.takeValue t
    | .valueOrClose => if t = .mark ']' then s.pop else s.takeValue t
    | .comma => s.takeComma t
    | .name => s.takeName t
    | .nameOrClose => if t = .mark '\x7d' then s.pop else s.takeName t
    | .colon => if t = .mark ':' then { s with expect := .value } else s.stop .malformed

/-- The document when no token is left. -/
def finish (s : State) : Document :=
  match s.done with
  | some d => ⟨d, s.trailing⟩
  | none => ⟨(s.stop .truncated).done.getD (Draft.dead .truncated), false⟩

end State

/-- The document that a sequence of tokens writes. -/
def ofTokens (ts : List Token) : Document :=
  (ts.foldl State.step State.init).finish

/-- The document of a text. -/
def ofChars (cs : List Char) : Document :=
  ofTokens (Token.scan cs)

end Document

/-! ### Values as drafts -/

mutual

/-- The draft of a value, in which everything can be read. -/
def toDraft : Json → Draft
  | .null => .scalar .null
  | .bool b => .scalar (.bool b)
  | .number n => .scalar (.number n)
  | .text s => .scalar (.text s)
  | .list items => .list false (toDrafts items) none
  | .fields members => .fields false (toMembers members) none

/-- The drafts of a list of values. -/
def toDrafts : List Json → List Draft
  | [] => []
  | v :: vs => toDraft v :: toDrafts vs

/-- The drafts of a list of members. -/
def toMembers : List (String × Json) → List (Name × Draft)
  | [] => []
  | (k, v) :: ms => (.text k, toDraft v) :: toMembers ms

end

end Json
end ClusterKit
