/-
# Reports of failures

A failure is reported by what is said of it, and one of a server also by its
status and by the sorts that callers ask for.

Key definitions: `Status.report`, `ClientError.report`, `RequestError.report`,
`Termination.report`.
-/
import ClusterKit.Watch.Termination
import ClusterKit.Wire.Status

namespace ClusterKit

/-- Which of the sorts that callers ask for a status is. -/
def Status.sorts (s : Status) : List String :=
  (if s.isNotFound then ["not_found"] else []) ++
  (if s.isAlreadyExists then ["already_exists"] else []) ++
  (if s.isConflict then ["conflict"] else []) ++
  (if s.isInvalid then ["invalid"] else [])

/-- The report of a status as a failure. -/
def Status.report (s : Status) : Json :=
  .object [("error", .text "Status"), ("message", .text s.summary), ("status", s.toJson),
    ("is", Json.ofStrings s.sorts)]

/-- The report of a failed call. -/
def ClientError.report (e : ClientError) : Json :=
  .object <|
    [("message", .text e.message),
      ("is", Json.ofStrings ((e.status?.map Status.sorts).getD []))] ++
    (e.status?.map fun s => ("status", s.toJson)).toList

/-- The name of the sort. -/
def RequestError.name : RequestError → String
  | .badUri => "BuildRequest"
  | .unwritable _ => "SerializeBody"
  | .invalid _ => "Validation"

/-- The report of a call that cannot be made. -/
def RequestError.report (e : RequestError) : Json :=
  .object [("error", .text e.name), ("message", .text e.message)]

/-- The report of the end of a watch. -/
def Termination.report : Termination → Json
  | .closed => .object [("cause", .text "Closed")]
  | .stopped => .object [("cause", .text "Stopped")]
  | .mismatch kind => .object [("cause", .text "Mismatch"), ("kind", .text kind)]
  | .narrowing e =>
    .object [("cause", .text "Narrowing"), ("message", .text (ClientError.misfitText e))]
  | .api s => .object [("cause", .text "Api"), ("status", s.toJson)]
  | .stream m => .object [("cause", .text "Stream"), ("message", .text m)]

end ClusterKit
