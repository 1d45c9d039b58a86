/-
# Watchers by name

Watchers of any types are kept by names. All of them settle together, over the
tracker that feeds some of them. A watcher whose owner has given it up stays
as what its handle can still reach. A watcher is given up when its name goes to
another one; its pump notices that when it moves next, and until then its
subscription is open.

Key definitions: `HeldWatcher`, `Watchers`, `Watchers.settle`, `Watchers.hold`.
-/
import ClusterKit.Watch.Live

namespace ClusterKit

/-- A watcher together with its type of objects, and whether its owner still has it. -/
structure HeldWatcher where
  {Object : Type}
  kind : Kind Object
  live : LiveWatcher Object
  owned : Bool

namespace HeldWatcher

/-- The watcher and the tracker when the pump waits. -/
def settle (h : HeldWatcher) (t : Tracker) : HeldWatcher × Tracker :=
  let (live, t) := h.live.settle h.kind t
  ({ h with live := live }, t)

/-- The watcher changed by `f`. -/
def map (h : HeldWatcher) (f : Watcher h.Object → Watcher h.Object) : HeldWatcher :=
  { h with live := { h.live with watcher := f h.live.watcher } }

/-- The watcher after its owner has given it up, which stops it. -/
def giveUp (h : HeldWatcher) : HeldWatcher :=
  { h.map (·.stop h.kind) with owned := false }

end HeldWatcher

/-- The watchers that have names, and those whose name another one has taken
over; the pumps of these are still to notice it. -/
structure Watchers where
  named : Table String HeldWatcher
  replaced : List HeldWatcher

namespace Watchers

/-- No watchers. -/
def empty : Watchers :=
  ⟨.empty, []⟩

/-- The watcher of a name. -/
def find? (ws : Watchers) (name : String) : Option HeldWatcher :=
  ws.named.get? name

/-- The watcher of a name whose owner still has it. -/
def owned? (ws : Watchers) (name : String) : Option HeldWatcher :=
  (ws.find? name).filter (·.owned)

/-- The watchers with a changed one. -/
def set (ws : Watchers) (name : String) (h : HeldWatcher) : Watchers :=
  { ws with named := ws.named.insert name h }

/-- The watchers with a new one; the one that had its name is given up. -/
def hold (ws : Watchers) (name : String) (h : HeldWatcher) : Watchers :=
  { ws.set name h with replaced := (ws.owned? name).toList.map (·.giveUp) ++ ws.replaced }

/-- All watchers and the tracker when all pumps wait. The pumps of replaced
watchers have ended then, and nobody can reach them any more. -/
def settle (ws : Watchers) (t : Tracker) : Watchers × Tracker :=
  let (named, t) := ws.named.toList.foldl (fun (named, t) (name, h) =>
    let (h, t) := h.settle t
    (named.insert name h, t)) (ws.named, t)
  (⟨named, []⟩, ws.replaced.foldl (fun t h => (h.settle t).2) t)

end Watchers
end ClusterKit
