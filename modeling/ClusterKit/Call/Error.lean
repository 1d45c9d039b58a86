/-
# Failures of calls

A call fails with a status of the server, or before or behind the server: the
request cannot be built, the transport fails, the answer cannot be read.

Key definitions: `ClientError`, `ClientError.message`.
-/
import ClusterKit.Call.Request
import ClusterKit.Naming.Resource
import ClusterKit.Status

namespace ClusterKit

/-- Why a call failed. -/
inductive ClientError
  | api (s : Status)
  | service (text : String)
  | notUtf8
  | lineTooLong
  | readEvents (text : String)
  | unreadable (e : Json.ReadError)
  | misfit (e : Json.ReadError)
  | request (e : RequestError)
  | unregistered (t : UnregisteredType)
  | timedOut (after : Span)
  | namespaceMismatch (expected found : String)
  | unhandled (verb resource : String)
  deriving DecidableEq

namespace ClientError

/-- What is said of an object that does not fit a type. -/
def misfitText (e : Json.ReadError) : String :=
  "object does not fit the requested type: " ++ e.message

/-- What is said of the failure. -/
def message : ClientError → String
  | .api s => s!"ApiError: {s.summary} ({s.debug})"
  | .service t => "ServiceError: " ++ t
  | .notUtf8 => "UTF-8 Error: <utf8>"
  | .lineTooLong => "Error finding newline character"
  | .readEvents t => "Error reading events stream: " ++ t
  | .unreadable e => "Error deserializing response: " ++ e.message
  | .misfit e => "Error converting object: " ++ misfitText e
  | .request e => "Failed to build request: " ++ e.message
  | .unregistered t => t.message
  | .timedOut d => "request timed out after " ++ d.text
  | .namespaceMismatch expected found =>
    "object namespace " ++ Text.quote found ++ " does not match the bound namespace " ++
      Text.quote expected
  | .unhandled verb resource => s!"no reaction implemented for {verb} on {resource}"

/-- The status of the server. -/
def status? : ClientError → Option Status
  | .api s => some s
  | _ => none

/-- Whether the failure is a status that `p` holds of. -/
def hasStatus (p : Status → Bool) (e : ClientError) : Bool :=
  e.status?.any p

def isNotFound (e : ClientError) : Bool := e.hasStatus Status.isNotFound
def isAlreadyExists (e : ClientError) : Bool := e.hasStatus Status.isAlreadyExists
def isConflict (e : ClientError) : Bool := e.hasStatus Status.isConflict
def isInvalid (e : ClientError) : Bool := e.hasStatus Status.isInvalid

end ClientError
end ClusterKit
