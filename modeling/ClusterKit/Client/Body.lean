/-
# Bodies

The body of a request or a response arrives in pieces. It ends, or it fails,
or nothing more comes. A body may announce its size beforehand.

Key definitions: `Body`, `BodyFailure`, `Body.wrapped`, `Body.collect`.
-/
import ClusterKit.Call.Error

namespace ClusterKit

/-- Why no more of a body can be read, and whether it broke off too early. -/
structure BodyFailure where
  text : String
  unexpectedEnd : Bool
  deriving DecidableEq

/-- What comes behind the last piece of a body; it may be nothing, ever. -/
inductive BodyEnd
  | complete
  | failed (f : BodyFailure)
  | never
  deriving DecidableEq

/-- A body: its pieces, what comes behind them, and its size if it is announced. -/
structure Body where
  pieces : List (List UInt8)
  ending : BodyEnd
  size : Option Nat
  deriving DecidableEq

/-- What a reader of the body is told of the failure. -/
def BodyFailure.error (f : BodyFailure) : ClientError :=
  .service f.text

namespace Body

/-- A body of known bytes, which announces its size. -/
def ofBytes (bs : List UInt8) : Body :=
  ⟨if bs.isEmpty then [] else [bs], .complete, some bs.length⟩

/-- Whether it is known that nothing comes. -/
def isEmpty (b : Body) : Bool :=
  b.size == some 0

/-- The body as a layer above hands it on: its failure is one of the layer below. -/
def wrapped (b : Body) : Body :=
  match b.ending with
  | .failed f => { b with ending := .failed ⟨f.error.message, false⟩ }
  | _ => b

/-- All bytes, unless they never end. -/
def collect (b : Body) : Option (Except ClientError (List UInt8)) :=
  match b.ending with
  | .complete => some (.ok b.pieces.flatten)
  | .failed f => some (.error f.error)
  | .never => none

/-- The form that shows the size. -/
def debug (b : Body) : String :=
  let bound := Status.debugOption (fun n : Nat => toString n) b.size
  "Body(" ++
    Status.debugParts "SizeHint" [("lower", toString (b.size.getD 0)), ("upper", bound)] ++ ")"

end Body
end ClusterKit
