/-
# Narrower apis

Each of these layers leaves something out of the calls of the layer beneath:
the namespace, the parameters, and the failures. An api that is bound to a
namespace puts objects without one there and refuses those of another before
anything is called.

Key definitions: `NamespacedApi`, `ResourceApi.inNamespace`, `OptionlessApi`,
`NamespacedApi.withoutParams`, `InfallibleApi`, `OptionlessApi.orPanic`.
-/
import ClusterKit.Api.Resource

namespace ClusterKit

/-- The calls within one namespace. -/
structure NamespacedApi (m : Type → Type) (α : Type) where
  get : (name : String) → GetParams → ExceptT ClientError m α
  create : α → PostParams → ExceptT ClientError m α
  update : α → PostParams → ExceptT ClientError m α
  delete : (name : String) → DeleteParams → ExceptT ClientError m Unit
  list : ListParams → ExceptT ClientError m (ObjectList α)
  watch : ListParams → ExceptT ClientError m (LiveWatcher α)

/-- The calls within one namespace that have no parameters. -/
structure OptionlessApi (m : Type → Type) (α : Type) where
  get : (name : String) → ExceptT ClientError m α
  create : α → ExceptT ClientError m α
  update : α → ExceptT ClientError m α
  delete : (name : String) → ExceptT ClientError m Unit
  list : ExceptT ClientError m (ObjectList α)
  watch : ExceptT ClientError m (LiveWatcher α)

/-- The calls that give up where they fail. -/
structure InfallibleApi (m : Type → Type) (α : Type) where
  get : (name : String) → ExceptT Panic m α
  create : α → ExceptT Panic m α
  update : α → ExceptT Panic m α
  delete : (name : String) → ExceptT Panic m Unit
  list : ExceptT Panic m (ObjectList α)
  watch : ExceptT Panic m (LiveWatcher α)

variable {m : Type → Type} [Monad m] {α : Type}

/-- The object as it is in namespace `ns`. -/
def Kind.scoped (K : Kind α) (ns : String) (obj : α) : Except ClientError α :=
  let own := (K.metadata obj).ns.getD ""
  if own.isEmpty then .ok (K.withMetadata { K.metadata obj with ns := some ns } obj)
  else if own = ns then .ok obj
  else .error (.namespaceMismatch ns own)

/-- The api bound to a namespace. -/
def ResourceApi.inNamespace (K : Kind α) (ns : String) (api : ResourceApi m α) :
    NamespacedApi m α where
  get name p := api.get name ns p
  create obj p := do
    let obj ← K.scoped ns obj
    api.create obj p
  update obj p := do
    let obj ← K.scoped ns obj
    api.update obj p
  delete name p := api.delete name ns p
  list p := api.list ns p
  watch p := api.watch ns p

/-- The api that calls without parameters. -/
def NamespacedApi.withoutParams (api : NamespacedApi m α) : OptionlessApi m α where
  get name := api.get name .none
  create obj := api.create obj .none
  update obj := api.update obj .none
  delete name := api.delete name .none
  list := api.list .none
  watch := api.watch .none

/-- The api that gives up where a call fails. -/
def OptionlessApi.orPanic (api : OptionlessApi m α) : InfallibleApi m α where
  get name := ResourceApi.orPanic "get" (api.get name)
  create obj := ResourceApi.orPanic "create" (api.create obj)
  update obj := ResourceApi.orPanic "update" (api.update obj)
  delete name := ResourceApi.orPanic "delete" (api.delete name)
  list := ResourceApi.orPanic "list" api.list
  watch := ResourceApi.orPanic "watch" api.watch

end ClusterKit
