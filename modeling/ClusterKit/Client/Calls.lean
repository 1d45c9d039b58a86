/-
# Calls of a client

A client sends requests and reads the answers: as text, as a value, or as a
stream of events. An answer that reports a failure becomes an error.

Key definitions: `Client.requestText`, `Client.request`, `Client.requestEvents`.
-/
import ClusterKit.Client.Events
import ClusterKit.Client.Session
import ClusterKit.Client.Status

namespace ClusterKit
namespace Client

/-- The text of a body. -/
def bodyText (b : Body) : ExceptT ClientError Session String := do
  let bs ← Session.collect b
  match Utf8.decode? bs with
  | some cs => return String.ofList cs
  | none => throw .notUtf8

/-- The text of the answer to a request. -/
def requestText (call : Option String) (r : Request) : ExceptT ClientError Session String := do
  let res ← Session.send call r
  let text ← bodyText res.body
  match checkCode res.code text with
  | .ok _ => return text
  | .error e => throw e

/-- The value that the answer to a request writes. -/
def request (reader : Json.Reader α) (call : Option String) (r : Request) :
    ExceptT ClientError Session α := do
  let text ← requestText call r
  match reader.ofText text with
  | .ok a => return a
  | .error e => throw (.unreadable e)

/-- The events in the answer to a watch; nothing but success carries any. -/
def requestEvents (call : Option String) (r : Request) :
    ExceptT ClientError Session EventStream := do
  let res ← Session.send call r
  if isSuccess res.code then return .ofBody res.body
  let text ← bodyText res.body
  match checkCode res.code text with
  | .ok _ => throw (.api (.bare res.code Reason.unknown text))
  | .error e => throw e

end Client
end ClusterKit
