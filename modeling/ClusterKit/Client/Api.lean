/-
# Apis of a server

The calls of a server's api are requests on the path of its resource. Objects
go out erased, so that they name their type, and come in typed.

Key definitions: `ServerApi`, `ServerApi.bind`, `ServerApi.calls`, `ServerApi.logs`.
-/
import ClusterKit.Api.Resource
import ClusterKit.Client.Calls

namespace ClusterKit

/-- The binding of a type to its resource on a server. -/
structure ServerApi where
  resource : ApiResource
  deriving DecidableEq

namespace ServerApi

/-- The binding of a type that describes itself or is registered in a scheme. -/
def bind (K : Kind α) (s : Scheme) : Except ClientError ServerApi :=
  match ApiResource.resolve s K.identity with
  | .ok r => .ok ⟨r⟩
  | .error t => .error (.unregistered t)

/-- The request for a call, unless there is none. -/
def building (r : Except RequestError Request) : ExceptT ClientError Session Request :=
  match r with
  | .ok r => return r
  | .error e => throw (.request e)

/-- The body that carries an object. -/
def payload (K : Kind α) (r : ApiResource) (obj : α) : Except ClientError (List UInt8) :=
  match K.erase r obj with
  | .error e => .error (.misfit e)
  | .ok o =>
    match o.toJson? with
    | .error e => .error (.unreadable e)
    | .ok v => .ok v.bytes

/-- Send an object, and read one back. -/
def write (K : Kind α) (r : ApiResource) (call : String) (obj : α)
    (build : List UInt8 → Except RequestError Request) : ExceptT ClientError Session α := do
  match payload K r obj with
  | .error e => throw e
  | .ok bytes =>
    let q ← building (build bytes)
    Client.request K.reader (some call) q

/-- The path of the collection that an object belongs to. -/
def homePath (K : Kind α) (r : ApiResource) (obj : α) : String :=
  r.urlPath ((K.metadata obj).ns.getD "")

/-- The calls on a server. -/
def calls (K : Kind α) (api : ServerApi) : ResourceApi Session α where
  get name ns p := do
    let q ← building (Request.get (api.resource.urlPath ns) name p)
    Client.request K.reader (some "get") q
  create obj p :=
    write K api.resource "create" obj (Request.create (homePath K api.resource obj) p)
  update obj p :=
    write K api.resource "replace" obj
      (Request.replace (homePath K api.resource obj) ((K.metadata obj).name.getD "") p)
  delete name ns p := do
    let q ← building (Request.delete (api.resource.urlPath ns) name p)
    let _ ← Client.requestText (some "delete") q
    return ()
  list ns p := do
    let q ← building (Request.list (api.resource.urlPath ns) p)
    let call := Client.request (ObjectList.reader K.reader) (some "list") q
    match p.timeoutSpan with
    | some limit => Session.within limit call
    | none => call
  watch ns p := do
    let q ← building (Request.watch (api.resource.urlPath ns) p)
    let stream ← Client.requestEvents (some "watch") q
    return .ofSource api.resource (.script stream.items stream.ended)

/-- The logs of an item. -/
def logs (api : ServerApi) (name ns : String) (p : LogParams) :
    ExceptT ClientError Session String := do
  let q ← building (Request.logs (api.resource.urlPath ns) name p)
  Client.requestText (some "logs") q

end ServerApi
end ClusterKit
