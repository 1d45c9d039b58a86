/-
# Apis of a fake cluster

The calls of a fake api are actions on its clientset. Objects go in erased and
come out typed; an answer of the wrong sort is a failure of the server.

Key definitions: `FakeApi`, `FakeApi.bind`, `FakeApi.seeded`, `FakeApi.calls`.
-/
import ClusterKit.Api.Resource
import ClusterKit.Fake.Clientset

namespace ClusterKit

/-- The binding of a type to its resource in a fake cluster. -/
structure FakeApi where
  resource : ApiResource
  deriving DecidableEq

namespace FakeApi

variable {α : Type} (K : Kind α)

/-- The binding of a type in a cluster. -/
def bind (c : Clientset) : Except ClientError FakeApi :=
  match ApiResource.resolve c.scheme K.identity with
  | .ok r => .ok ⟨r⟩
  | .error t => .error (.unregistered t)

/-- Add an object to the tracker of a cluster. -/
def seed (api : FakeApi) (obj : α) (c : Clientset) : Except ClientError Clientset :=
  match K.erase api.resource obj with
  | .error e => .error (.misfit e)
  | .ok o =>
    match c.tracker.add api.resource.gvr o with
    | .error s => .error (.api s)
    | .ok t => .ok { c with tracker := t }

/-- The binding of a type in a new cluster that holds the given objects. -/
def seeded (s : Scheme) (objs : List α) : Except ClientError (FakeApi × Clientset) := do
  let c := Clientset.ofScheme s
  let api ← bind K c
  let c ← objs.foldlM (fun c obj => api.seed K obj c) c
  return (api, c)

/-- The failure by a reply of the wrong sort. -/
def unexpected (verb : String) (r : Reply) : ClientError :=
  let found := match r with
    | .object _ => "an object"
    | .list _ => "a list"
    | .empty => "nothing"
  .api (.bare 500 Reason.internalError s!"reactor answered {verb} with {found}")

/-- The object of a reply. -/
def typed (verb : String) : Reply → Except ClientError α
  | .object o =>
    match K.restore o with
    | .ok obj => .ok obj
    | .error e => .error (.misfit e)
  | r => .error (unexpected verb r)

/-- The list of a reply. -/
def typedList : Reply → Except ClientError (ObjectList α)
  | .list l =>
    match l.items.mapM K.restore with
    | .ok items => .ok ⟨l.metadata, items⟩
    | .error e => .error (.misfit e)
  | r => .error (unexpected "list" r)

/-- Whether a reply says that something was deleted. -/
def deleted : Reply → Except ClientError Unit
  | .list l => .error (unexpected "delete" (.list l))
  | _ => .ok ()

/-- The outcome of an action on a cluster. -/
def invoke (a : Action) : ExceptT ClientError (StateM Clientset) Reply :=
  ExceptT.mk fun c => c.invoke a

/-- The outcome of a watch on a cluster. -/
def invokeWatch (a : Action) : ExceptT ClientError (StateM Clientset) RawSource :=
  ExceptT.mk fun c => c.invokeWatch a

/-- An action on the collection in a namespace. -/
def action (api : FakeApi) (ns : String) (d : Deed) : Action :=
  ⟨api.resource.gvr, ns, d⟩

/-- Write an object in its namespace. -/
def write (api : FakeApi) (verb : String) (obj : α) (deed : Erased → Deed) :
    ExceptT ClientError (StateM Clientset) α := do
  match K.erase api.resource obj with
  | .error e => throw (.misfit e)
  | .ok o =>
    let r ← invoke (api.action ((K.metadata obj).ns.getD "") (deed o))
    typed K verb r

/-- The calls on a cluster. -/
def calls (api : FakeApi) : ResourceApi (StateM Clientset) α where
  get name ns _ := do
    let r ← invoke (api.action ns (.get name))
    typed K "get" r
  create obj p := api.write K "create" obj (.create · p)
  update obj p := api.write K "update" obj (.update · p)
  delete name ns p := do
    let r ← invoke (api.action ns (.delete name p))
    deleted r
  list ns p := do
    let r ← invoke (api.action ns (.list p))
    typedList K r
  watch ns p := do
    let source ← invokeWatch (api.action ns (.watch p))
    return .ofSource api.resource source

/-- The form that shows the binding and how much there is. -/
def debug (api : FakeApi) (c : Clientset) : String :=
  Status.debugParts "FakeApi" [("resource", api.resource.debug), ("clientset", c.debug)]

end FakeApi
end ClusterKit
