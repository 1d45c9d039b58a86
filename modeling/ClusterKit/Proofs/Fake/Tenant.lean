/-
# Tenants

A tenant works on a fake cluster through an api bound to a namespace: it makes
calls, and it follows the watches that it has opened, one move at a time, so that
a list of acts is any way to use the api. What a tenant sees are the answers of
its calls, the events that move on to its watches, and what it reads from them.

Key definitions: `Tenant`, `Tenant.Act`, `Tenant.act`, `Tenant.run`.
-/
import ClusterKit.Api.Bound
import ClusterKit.Proofs.Fake.Cluster

namespace ClusterKit

variable {α : Type}

/-- Who works on a cluster through an api bound to a namespace, with the watches
opened so far. -/
structure Tenant (α : Type) where
  cluster : Clientset
  watches : List (LiveWatcher α)

namespace Tenant

/-- Who has not done anything yet. -/
def start (c : Clientset) : Tenant α :=
  ⟨c, []⟩

/-- What a tenant does: it calls the api, or it sees to one of its watches, be it
that what is queued moves on, that the watcher makes a move, or that the watch lets go. -/
inductive Act (α : Type)
  | get (name : String) (p : GetParams)
  | create (obj : α) (p : PostParams)
  | update (obj : α) (p : PostParams)
  | delete (name : String) (p : DeleteParams)
  | list (p : ListParams)
  | watch (p : ListParams)
  | receive (n : Nat)
  | move (n : Nat) (a : Watcher.Act)
  | letGo (n : Nat)

/-- What a tenant sees of what it does. -/
inductive Answer (α : Type)
  | called (x : FakeApi.Answer α (Watcher α))
  | told (es : List (WatchEvent Erased))
  | moved (out : Option (Option (Option (Change α))))
  | nothing

/-- Make a call. -/
def ask (call : ExceptT ClientError (StateM Clientset) β)
    (f : Except ClientError β → FakeApi.Answer α (Watcher α)) (v : Tenant α) :
    Answer α × Tenant α :=
  let x := call.run v.cluster
  (.called (f x.1), { v with cluster := x.2 })

/-- See to the watch of a number, if there is one. -/
def attend (n : Nat) (f : LiveWatcher α → Tracker → Answer α × LiveWatcher α × Tracker)
    (v : Tenant α) : Answer α × Tenant α :=
  match v.watches[n]? with
  | none => (.nothing, v)
  | some l =>
    let x := f l v.cluster.tracker
    (x.1, ⟨{ v.cluster with tracker := x.2.2 }, v.watches.set n x.2.1⟩)

section

variable (K : Kind α) (api : FakeApi) (ns : String)

/-- The calls that a tenant can make. -/
def calls : NamespacedApi (StateM Clientset) α :=
  (api.calls K).inNamespace K ns

/-- What a tenant sees of an act, and what is there after it. -/
def act (a : Act α) (v : Tenant α) : Answer α × Tenant α :=
  match a with
  | .get name p => v.ask ((calls K api ns).get name p) .object
  | .create obj p => v.ask ((calls K api ns).create obj p) .object
  | .update obj p => v.ask ((calls K api ns).update obj p) .object
  | .delete name p => v.ask ((calls K api ns).delete name p) .done
  | .list p => v.ask ((calls K api ns).list p) .list
  | .watch p =>
    let x := ((calls K api ns).watch p).run v.cluster
    (.called (.opened (x.1.map (·.watcher))), ⟨x.2, v.watches ++ x.1.toOption.toList⟩)
  | .receive n => v.attend n fun l t =>
    let x := l.receive K t
    (.told x.1, x.2)
  | .move n a => v.attend n fun l t =>
    (.moved ((l.watcher.act? K a).map (·.2)), { l with watcher := l.watcher.act K a }, t)
  | .letGo n => v.attend n fun l t => (.nothing, l.letGo t)

/-- What a tenant sees of all that it does, and what is there in the end. -/
def run : List (Act α) → Tenant α → List (Answer α) × Tenant α
  | [], v => ([], v)
  | a :: as, v =>
    let (x, v) := v.act K api ns a
    let (xs, v) := run as v
    (x :: xs, v)

end

end Tenant

end ClusterKit
