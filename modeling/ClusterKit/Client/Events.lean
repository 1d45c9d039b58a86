/-
# Streams of events

The answer to a watch is a body of lines, each of which is an event or a bare
status. A line that ends in the middle of its value counts for nothing. Behind
a line that is no text, and behind a failure of the body, nothing more is read.

Key definitions: `LineFailure`, `EventStream`, `EventStream.ofBody`.
-/
import ClusterKit.Client.Body
import ClusterKit.Text.Lines
import ClusterKit.Watch.Termination
import ClusterKit.Wire.Event

namespace ClusterKit

/-- Why there are no more lines, and whether they broke off too early. -/
structure LineFailure where
  text : String
  unexpectedEnd : Bool
  deriving DecidableEq

namespace LineFailure

/-- The failure by a line that is no text. -/
def notText : LineFailure :=
  ⟨"Unable to decode input as UTF8", false⟩

/-- The failure by that of the body, of which no more than its text is known. -/
def ofBody (f : BodyFailure) : LineFailure :=
  ⟨f.error.message, false⟩

end LineFailure

/-- A line as text, or the failure in its place. -/
abbrev TextLine := Except LineFailure String

/-- The text of a line. -/
def TextLine.ofBytes (line : List UInt8) : TextLine :=
  match Utf8.decode? (Lines.trim line) with
  | some cs => .ok (String.ofList cs)
  | none => .error .notText

/-- The lines up to the first failure, and whether there is one. -/
def TextLine.untilFailure : List TextLine → List TextLine × Bool
  | [] => ([], false)
  | .error f :: _ => ([.error f], true)
  | .ok s :: lines =>
    let (lines, failed) := untilFailure lines
    (.ok s :: lines, failed)

/-- The lines of the pieces of a body behind `rest`, and whether they end. -/
def TextLine.ofPieces (rest : List UInt8) (e : BodyEnd) : List (List UInt8) → List TextLine × Bool
  | [] =>
    match e with
    | .complete => (((Lines.last? rest).map TextLine.ofBytes).toList, true)
    | .failed f => ([.error (.ofBody f)], true)
    | .never => ([], false)
  | piece :: pieces =>
    let (lines, rest) := Lines.split (rest ++ piece)
    match untilFailure (lines.map TextLine.ofBytes) with
    | (lines, true) => (lines, true)
    | (lines, false) =>
      let (more, ended) := ofPieces rest e pieces
      (lines ++ more, ended)

/-- What a line says, if anything. -/
def TextLine.item? : TextLine → Option RawItem
  | .error f => if f.unexpectedEnd then none else some (.error (.readEvents f.text))
  | .ok s =>
    match (WatchEvent.reader Erased.reader).ofText s with
    | .ok e => some (.ok e)
    | .error .truncated => none
    | .error e =>
      match Status.reader.ofText s with
      | .ok status => some (.error (.api status))
      | .error _ => some (.error (.unreadable e))

/-- The items of a watch as they come over a connection, and whether they end. -/
structure EventStream where
  items : List RawItem
  ended : Bool

/-- The stream that a body carries. -/
def EventStream.ofBody (b : Body) : EventStream :=
  let (lines, ended) := TextLine.ofPieces [] b.ending b.pieces
  ⟨lines.filterMap TextLine.item?, ended⟩

end ClusterKit
