/-
# Apis

An api is the set of calls on the objects of one type. Whatever serves the
calls is a monad: a fake cluster, a connection to a server, or anything else.

Key definitions: `ResourceApi`, `ResourceApi.createOrUpdate`, `ResourceApi.mustList`.
-/
import ClusterKit.Call.Error
import ClusterKit.Object.List
import ClusterKit.Watch.Live

namespace ClusterKit

/-- The calls on the objects of a type; a namespace may be empty for all of them. -/
structure ResourceApi (m : Type → Type) (α : Type) where
  get : (name ns : String) → GetParams → ExceptT ClientError m α
  create : α → PostParams → ExceptT ClientError m α
  update : α → PostParams → ExceptT ClientError m α
  delete : (name ns : String) → DeleteParams → ExceptT ClientError m Unit
  list : (ns : String) → ListParams → ExceptT ClientError m (ObjectList α)
  watch : (ns : String) → ListParams → ExceptT ClientError m (LiveWatcher α)

namespace ResourceApi

variable {m : Type → Type} [Monad m] {α : Type}

/-- Create an object, or replace it if it exists already; all other failures stand. -/
def createOrUpdate (api : ResourceApi m α) (obj : α) (p : PostParams) : ExceptT ClientError m α :=
  tryCatch (api.create obj p) fun e => if e.isAlreadyExists then api.update obj p else throw e

/-- Give up where a call fails. -/
def orPanic (verb : String) (call : ExceptT ClientError m β) : ExceptT Panic m β :=
  ExceptT.mk do
    match ← call.run with
    | .ok b => return .ok b
    | .error e => return .error ⟨verb ++ " failed: " ++ e.message⟩

/-- List, and give up where that fails. -/
def mustList (api : ResourceApi m α) (ns : String) (p : ListParams) :
    ExceptT Panic m (ObjectList α) :=
  orPanic "list" (api.list ns p)

end ResourceApi
end ClusterKit
