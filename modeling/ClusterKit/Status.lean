/-
# Statuses

A failed call is answered by a status: a message for people, a reason and a
code for programs, and perhaps details of the object concerned. The servers'
own statuses for missing, doubled, outdated and invalid objects are built here,
together with the ways a status is shown in messages.

Key definitions: `Status`, `Status.notFound`, `Status.alreadyExists`,
`Status.conflict`, `Status.invalid`, `Status.summary`, `Status.debug`.
-/
import ClusterKit.Naming.Version
import ClusterKit.Text.Quoted

namespace ClusterKit

/-- One cause of a failure. -/
structure StatusCause where
  field : Option String
  message : Option String
  reason : Option String
  deriving DecidableEq, Repr

/-- What a failure is about. -/
structure StatusDetails where
  causes : Option (List StatusCause)
  group : Option String
  kind : Option String
  name : Option String
  retryAfterSeconds : Option Int
  uid : Option String
  deriving DecidableEq, Repr

/-- The answer to a failed call. -/
structure Status where
  status : String
  message : String
  reason : String
  code : Nat
  details : Option StatusDetails
  deriving DecidableEq, Repr

/-! ### Reasons -/

namespace Reason

def unknown : String := ""
def notFound : String := "NotFound"
def alreadyExists : String := "AlreadyExists"
def conflict : String := "Conflict"
def gone : String := "Gone"
def invalid : String := "Invalid"
def badRequest : String := "BadRequest"
def timeout : String := "Timeout"
def methodNotAllowed : String := "MethodNotAllowed"
def internalError : String := "InternalError"

end Reason

namespace Status

/-- A failure without details. -/
def bare (code : Nat) (reason message : String) : Status :=
  ⟨"Failure", message, reason, code, none⟩

/-- A failure about `name` in the collection `r`. -/
def failure (code : Nat) (reason message : String) (r : GroupVersionResource) (name : String) :
    Status :=
  let name? := if name.isEmpty then none else some name
  { bare code reason message with
    details := some ⟨none, some r.group, some r.resource, name?, none, none⟩ }

/-- The subject of a message about `name` in the collection `r`. -/
def subject (r : GroupVersionResource) (name : String) : String :=
  r.inGroup ++ " " ++ Text.quote name

/-- There is no `name` in the collection. -/
def notFound (r : GroupVersionResource) (name : String) : Status :=
  failure 404 Reason.notFound (subject r name ++ " not found") r name

/-- There is a `name` in the collection already. -/
def alreadyExists (r : GroupVersionResource) (name : String) : Status :=
  failure 409 Reason.alreadyExists (subject r name ++ " already exists") r name

/-- The stored `name` is not what the call expects. -/
def conflict (r : GroupVersionResource) (name cause : String) : Status :=
  failure 409 Reason.conflict
    ("Operation cannot be fulfilled on " ++ subject r name ++ ": " ++ cause) r name

/-- The object given as `name` is not valid. -/
def invalid (r : GroupVersionResource) (name cause : String) : Status :=
  failure 422 Reason.invalid (subject r name ++ " is invalid: " ++ cause) r name

/-! ### Questions -/

def isNotFound (s : Status) : Bool := s.reason == Reason.notFound
def isAlreadyExists (s : Status) : Bool := s.reason == Reason.alreadyExists
def isConflict (s : Status) : Bool := s.reason == Reason.conflict
def isInvalid (s : Status) : Bool := s.reason == Reason.invalid

/-! ### Shown forms -/

/-- The message and the reason. -/
def summary (s : Status) : String :=
  s!"{s.message}: {s.reason}"

/-- The form of an optional part. -/
def debugOption (f : α → String) : Option α → String
  | none => "None"
  | some a => "Some(" ++ f a ++ ")"

/-- The form of a structure with the given parts. -/
def debugParts (name : String) (parts : List (String × String)) : String :=
  name ++ " \x7b " ++ ", ".intercalate (parts.map fun p => p.1 ++ ": " ++ p.2) ++ " \x7d"

end Status

/-- The form that shows every part. -/
def StatusCause.debug (c : StatusCause) : String :=
  Status.debugParts "StatusCause"
    [("field", Status.debugOption Text.quote c.field),
     ("message", Status.debugOption Text.quote c.message),
     ("reason", Status.debugOption Text.quote c.reason)]

/-- The form that shows every part. -/
def StatusDetails.debug (d : StatusDetails) : String :=
  let causes := fun cs : List StatusCause => "[" ++ ", ".intercalate (cs.map StatusCause.debug) ++ "]"
  Status.debugParts "StatusDetails"
    [("causes", Status.debugOption causes d.causes),
     ("group", Status.debugOption Text.quote d.group),
     ("kind", Status.debugOption Text.quote d.kind),
     ("name", Status.debugOption Text.quote d.name),
     ("retry_after_seconds", Status.debugOption toString d.retryAfterSeconds),
     ("uid", Status.debugOption Text.quote d.uid)]

/-- The form that shows every part. -/
def Status.debug (s : Status) : String :=
  Status.debugParts "ErrorResponse"
    [("status", Text.quote s.status), ("message", Text.quote s.message),
     ("reason", Text.quote s.reason), ("code", toString s.code),
     ("details", Status.debugOption StatusDetails.debug s.details)]

end ClusterKit
