/-
# Reports of calls

Requests, and actions on fake clusters, as JSON values. A body is shown as the
value that it writes, and as text if it writes none.

Key definitions: `Request.members`, `SentRequest.report`, `ListParams.toJson`,
`Action.report`.
-/
import ClusterKit.Client.Session
import ClusterKit.Fake.Action
import ClusterKit.Json.Member
import ClusterKit.Report.Name
import ClusterKit.Wire.Erased

namespace ClusterKit

/-- What bytes write: nothing, a value, or whatever characters they hold. -/
def Json.ofBytes (bs : List UInt8) : Json :=
  if bs.isEmpty then .null
  else
    match Json.parseBytes? bs with
    | some v => v
    | none => .object [("text", .text (String.ofList (Utf8.decodeLossy bs)))]

/-- A text or null. -/
def Json.ofText? (s : Option String) : Json :=
  Json.ofOption .text s

/-- A written value, or why it cannot be written. -/
def Json.ofWritten : Except Json.ReadError Json → Json
  | .ok v => v
  | .error e => .object [("error", .text "Serialize"), ("category", .text e.category)]

/-! ### Requests -/

/-- The parts of a request. -/
def Request.members (r : Request) : List (String × Json) :=
  [("method", .text r.method.name), ("uri", .text r.uri.text),
    ("content_type", Json.ofText? r.contentType), ("body", Json.ofBytes r.body)]

/-- The report of a request that a transport was sent. -/
def SentRequest.report (s : SentRequest) : Json :=
  .object (s.request.members ++
    [("annotation", Json.ofText? s.call),
      ("sized", .bool (Body.ofBytes s.request.body).size.isSome)])

/-! ### Actions -/

/-- The parameters of a list or a watch, and the timeout that they amount to. -/
def ListParams.toJson (p : ListParams) : Json :=
  let number := fun (n : Option Nat) => Json.ofOption Json.ofNat n
  .object [("labels", Json.ofText? p.labelSelector), ("fields", Json.ofText? p.fieldSelector),
    ("timeout", number p.timeout), ("limit", number p.limit),
    ("continue", Json.ofText? p.continueToken), ("at", Json.ofText? p.resourceVersion),
    ("timeout_seconds", number (p.timeoutSpan.map (·.millis / 1000)))]

/-- The parameters of a create or an update. -/
def PostParams.toJson (p : PostParams) : Json :=
  .object [("dry_run", .bool p.dryRun), ("field_manager", Json.ofText? p.fieldManager)]

/-- The parts of what is done. -/
def Deed.members : Deed → List (String × Json)
  | .get name => [("name", .text name)]
  | .list p => [("params", p.toJson)]
  | .create o p => [("object", Json.ofWritten o.toJson?), ("params", p.toJson)]
  | .update o p => [("object", Json.ofWritten o.toJson?), ("params", p.toJson)]
  | .delete name p => [("name", .text name), ("params", p.toJson)]
  | .watch p => [("params", p.toJson)]

/-- The report of an action. -/
def Action.report (a : Action) : Json :=
  .object ([("verb", .text a.verb), ("resource", a.resource.toJson), ("namespace", .text a.ns)] ++
    a.deed.members)

end ClusterKit
