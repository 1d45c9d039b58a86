/-
# Failures that a server reports

A server reports a failure by the code of its answer. The body should be a
status; from any other body a status is made up.

Key definitions: `Client.isSuccess`, `Client.isFailure`, `Client.reportedStatus`.
-/
import ClusterKit.Call.Error
import ClusterKit.Wire.Status

namespace ClusterKit
namespace Client

/-- Whether a code means success. -/
def isSuccess (code : Nat) : Bool :=
  200 ≤ code && code < 300

/-- Whether a code means a failure, of the caller or of the server. -/
def isFailure (code : Nat) : Bool :=
  400 ≤ code && code < 600

/-- The reason of a failure that is known by its code alone. -/
def reasonOfCode : Nat → String
  | 400 => Reason.badRequest
  | 404 => Reason.notFound
  | 405 => Reason.methodNotAllowed
  | 409 => Reason.conflict
  | 410 => Reason.gone
  | 422 => Reason.invalid
  | 500 => Reason.internalError
  | 504 => Reason.timeout
  | _ => Reason.unknown

/-- The status in a failed answer. -/
def reportedStatus (code : Nat) (text : String) : Status :=
  match Status.reader.ofText text with
  | .ok s => s
  | .error _ => .bare code (reasonOfCode code) text

/-- An answer with the code of a failure is one. -/
def checkCode (code : Nat) (text : String) : Except ClientError Unit :=
  if isFailure code then .error (.api (reportedStatus code text)) else .ok ()

end Client
end ClusterKit
