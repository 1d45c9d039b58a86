/-
# Ends of watches

Why a watch delivers nothing more. A watch also ends when it meets an object of
another kind than the watched one, or one that does not fit the watched type.

Key definitions: `Termination`, `Termination.debug`, `RawItem`, `narrow`.
-/
import ClusterKit.Call.Error
import ClusterKit.Object.Kind
import ClusterKit.Watch.Change
import ClusterKit.Watch.Event

namespace ClusterKit

/-- Why a watch has ended. -/
inductive Termination
  | closed
  | stopped
  | mismatch (kind : String)
  | narrowing (e : Json.ReadError)
  | api (s : Status)
  | stream (message : String)
  deriving DecidableEq

/-- The form that shows every part. -/
def Termination.debug : Termination → String
  | .closed => "Closed"
  | .stopped => "Stopped"
  | .mismatch kind => Status.debugParts "Mismatch" [("kind", Text.quote kind)]
  | .narrowing e => "Narrowing(" ++ Text.quote (ClientError.misfitText e) ++ ")"
  | .api s => "Api(" ++ s.debug ++ ")"
  | .stream message => "Stream(" ++ Text.quote message ++ ")"

/-- What the other end of a watch sends: an event or a failure. -/
abbrev RawItem := Except ClientError (WatchEvent Erased)

/-- Whether an object that names its type may be of the resource `r`; it need not
name the version. -/
def TypeMeta.suits (t : TypeMeta) (r : ApiResource) : Bool :=
  t.kind == r.kind && (t.apiVersion.isEmpty || t.apiVersion == r.apiVersion)

/-- The object of the watched type that an erased one stands for. -/
def narrow (K : Kind α) (r : ApiResource) (o : Erased) : Except Termination α :=
  match o.types with
  | some t => if t.suits r then restored else .error (.mismatch t.kind)
  | none => restored
where
  /-- The object, whatever it says of its type. -/
  restored : Except Termination α :=
    match K.restore o with
    | .ok a => .ok a
    | .error e => .error (.narrowing e)

/-- What becomes of a raw item: a change to pass on, nothing, or the end of the watch. -/
inductive Forwarded (α : Type u)
  | pass (c : Change α)
  | skip
  | finish (t : Termination)

namespace Forwarded

/-- Pass on a change, or else end the watch. -/
def ofNarrowed (change : α → Change α) : Except Termination α → Forwarded α
  | .ok a => .pass (change a)
  | .error t => .finish t

/-- What becomes of a raw item in a watch of the resource `r`. -/
def ofItem (K : Kind α) (r : ApiResource) : RawItem → Forwarded α
  | .ok (.added o) => ofNarrowed .added (narrow K r o)
  | .ok (.modified o) => ofNarrowed .modified (narrow K r o)
  | .ok (.deleted o) => ofNarrowed .deleted (narrow K r o)
  | .ok (.bookmark _) => .skip
  | .ok (.error s) => .finish (.api s)
  | .error (.api s) => .finish (.api s)
  | .error e => .finish (.stream e.message)

end Forwarded
end ClusterKit
