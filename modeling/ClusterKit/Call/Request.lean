/-
# Requests

A call on a collection becomes a request on the path of the collection or of
one of its items. The set parameters stand in the query, in a fixed order;
those of a delete are the body. Calls that make no sense are refused before
anything is sent.

Key definitions: `Request`, `RequestError`, `Request.list`, `Request.watch`,
`Request.get`, `Request.create`, `Request.replace`, `Request.delete`, `Request.logs`.
-/
import ClusterKit.Call.Params
import ClusterKit.Call.Form
import ClusterKit.Call.Uri
import ClusterKit.Json.Print
import ClusterKit.Json.Token

namespace ClusterKit

/-- What a request does. -/
inductive Method
  | get
  | post
  | put
  | delete
  deriving DecidableEq, Repr

/-- The written name. -/
def Method.name : Method → String
  | .get => "GET"
  | .post => "POST"
  | .put => "PUT"
  | .delete => "DELETE"

/-- A request. -/
structure Request where
  method : Method
  uri : Uri
  contentType : Option String
  body : List UInt8
  deriving DecidableEq, Repr

/-- Why a call cannot be made. -/
inductive CallDefect
  | emptyName
  | longManager
  | limitedWatch
  | continuedWatch
  | pinnedTwice
  deriving DecidableEq, Repr

/-- What is said of the defect. -/
def CallDefect.reason : CallDefect → String
  | .emptyName => "A non-empty name is required"
  | .longManager => "fieldManager must be at most 128 characters"
  | .limitedWatch => "ListParams::limit cannot be used with a watch."
  | .continuedWatch => "ListParams::continue_token cannot be used with a watch."
  | .pinnedTwice => "a continue token already pins the resourceVersion of a list"

/-- Why there is no request for a call. -/
inductive RequestError
  | badUri
  | unwritable (e : Json.ReadError)
  | invalid (d : CallDefect)
  deriving DecidableEq, Repr

/-- What is said of the error. -/
def RequestError.message : RequestError → String
  | .badUri => "failed to build request: <http>"
  | .unwritable e => "failed to serialize body: " ++ e.message
  | .invalid d => "failed to validate request: " ++ d.reason

/-! ### Parameters as pairs -/

/-- The pair of a parameter that is set. -/
def setPair (name : String) (value : Option String) : List (String × String) :=
  (value.map fun v => (name, v)).toList

namespace ListParams

/-- The pairs that lists and watches share. -/
def selectorPairs (p : ListParams) : List (String × String) :=
  setPair "fieldSelector" p.fieldSelector ++
  setPair "labelSelector" p.labelSelector ++
  setPair "timeoutSeconds" (p.timeoutSeconds.map toString)

/-- The pairs of a list. -/
def listPairs (p : ListParams) : List (String × String) :=
  p.selectorPairs ++
  setPair "limit" (p.limit.map toString) ++
  setPair "continue" p.continueToken ++
  setPair "resourceVersion" p.resourceVersion

/-- The pairs of a watch. -/
def watchPairs (p : ListParams) : List (String × String) :=
  [("watch", "true")] ++ setPair "resourceVersion" p.resourceVersion ++ p.selectorPairs

end ListParams

/-- The pairs of a create or an update. -/
def PostParams.pairs (p : PostParams) : List (String × String) :=
  (if p.dryRun then [("dryRun", "All")] else []) ++ setPair "fieldManager" p.fieldManager

/-- The pairs of a log call. -/
def LogParams.pairs (p : LogParams) : List (String × String) :=
  setPair "container" p.container ++
  (if p.previous then [("previous", "true")] else []) ++
  setPair "tailLines" (p.tailLines.map toString)

namespace Request

/-- The type of JSON bodies. -/
def jsonType : String := "application/json"

/-- The most bytes that the name of a field manager may have. -/
def maxManagerSize : Nat := 128

/-! ### Parts -/

/-- A name has to have characters. -/
def checkName (name : String) : Except RequestError Unit :=
  if name.isEmpty then .error (.invalid .emptyName) else .ok ()

/-- The name of a field manager has to be short. -/
def checkManager (p : PostParams) : Except RequestError Unit :=
  match p.fieldManager with
  | some m => if maxManagerSize < Utf8.size m.toList then .error (.invalid .longManager) else .ok ()
  | none => .ok ()

/-- The address that characters write. -/
def address (cs : List Char) : Except RequestError Uri :=
  match Uri.parse? cs with
  | some u => .ok u
  | none => .error .badUri

/-- A path with pairs as its query. -/
def withPairs (path : List Char) (ps : List (String × String)) : List Char :=
  path ++ '?' :: Form.pairs ps

/-- The path of an item of a collection. -/
def itemPath (path name : String) : List Char :=
  path.toList ++ '/' :: name.toList

/-- A request without a body. -/
def plain (cs : List Char) : Except RequestError Request := do
  let u ← address cs
  return ⟨.get, u, none, []⟩

/-- A request with a JSON body. -/
def withBody (m : Method) (cs : List Char) (body : List UInt8) : Except RequestError Request := do
  let u ← address cs
  return ⟨m, u, some jsonType, body⟩

/-! ### Calls -/

/-- List the collection at `path`. -/
def list (path : String) (p : ListParams) : Except RequestError Request :=
  if p.continueToken.isSome && p.resourceVersion.isSome then .error (.invalid .pinnedTwice)
  else plain (withPairs path.toList p.listPairs)

/-- Watch the collection at `path`. -/
def watch (path : String) (p : ListParams) : Except RequestError Request :=
  if p.limit.isSome then .error (.invalid .limitedWatch)
  else if p.continueToken.isSome then .error (.invalid .continuedWatch)
  else plain (withPairs path.toList p.watchPairs)

/-- Get the item `name`. -/
def get (path name : String) (p : GetParams) : Except RequestError Request := do
  checkName name
  match p.resourceVersion with
  | some v => plain (withPairs (itemPath path name) [("resourceVersion", v)])
  | none => plain (itemPath path name)

/-- Create an item. -/
def create (path : String) (p : PostParams) (body : List UInt8) : Except RequestError Request := do
  checkManager p
  withBody .post (withPairs path.toList p.pairs) body

/-- Replace the item `name`. -/
def replace (path name : String) (p : PostParams) (body : List UInt8) :
    Except RequestError Request := do
  checkName name
  checkManager p
  withBody .put (withPairs (itemPath path name) p.pairs) body

/-- Delete the item `name`. -/
def delete (path name : String) (p : DeleteParams) : Except RequestError Request := do
  checkName name
  withBody .delete (withPairs (itemPath path name) []) p.toJson.bytes

/-- Read the logs of the item `name`. -/
def logs (path name : String) (p : LogParams) : Except RequestError Request := do
  checkName name
  plain (withPairs (itemPath path name ++ "/log".toList) p.pairs)

end Request
end ClusterKit
