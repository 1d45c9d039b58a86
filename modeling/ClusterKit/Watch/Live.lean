/-
# Watchers of a tracker

The source of a watcher is a given sequence of items, or a subscription of a
tracker of which only the events on objects with selected labels count. What
is queued for the subscription moves on to the watcher whenever the watcher
settles; once the pump has ended, the subscription is dropped.

Key definitions: `RawSource`, `LiveWatcher`, `LiveWatcher.settle`.
-/
import ClusterKit.Tracker.Basic
import ClusterKit.Watch.Bridge

namespace ClusterKit

/-- A subscription of a tracker, and the labels that its events have to have. -/
structure Feed where
  subscription : Nat
  selector : Selector
  deriving DecidableEq

/-- Whether an event passes; one without an object always does. -/
def Feed.passes (f : Feed) (e : WatchEvent Erased) : Bool :=
  e.object?.all fun o => f.selector.selects o.metadata.labelTable

/-- Where raw items come from. -/
inductive RawSource
  | script (items : List RawItem) (ended : Bool)
  | tracker (feed : Feed)

/-- A watcher together with the subscription that it still holds. -/
structure LiveWatcher (α : Type u) where
  watcher : Watcher α
  feed : Option Feed

namespace LiveWatcher

/-- The watcher of the resource `r` over a source. -/
def ofSource (r : ApiResource) : RawSource → LiveWatcher α
  | .script items ended => ⟨.ofItems r items ended, none⟩
  | .tracker feed => ⟨.ofItems r [] false, some feed⟩

/-- The watcher with items that its source has sent. -/
def receiveAll (K : Kind α) (items : List RawItem) (w : Watcher α) : Watcher α :=
  items.foldl (fun w item => w.act K (.send item)) w

/-- What is queued for the watcher moves on to it. -/
def receive (K : Kind α) (l : LiveWatcher α) (t : Tracker) :
    List (WatchEvent Erased) × LiveWatcher α × Tracker :=
  match l.feed with
  | none => ([], l, t)
  | some f =>
    let (es, t) := t.drain f.subscription
    (es, { l with watcher := receiveAll K ((es.filter f.passes).map .ok) l.watcher }, t)

/-- The watcher lets go of its subscription if its pump has ended. -/
def letGo (l : LiveWatcher α) (t : Tracker) : LiveWatcher α × Tracker :=
  match l.feed with
  | none => (l, t)
  | some f => if l.watcher.isPumping then (l, t) else
    ({ l with feed := none }, t.unsubscribe f.subscription)

/-- The watcher and the tracker when the pump waits. -/
def settle (K : Kind α) (l : LiveWatcher α) (t : Tracker) : LiveWatcher α × Tracker :=
  let (_, l, t) := l.receive K t
  letGo { l with watcher := l.watcher.settle K } t

end LiveWatcher
end ClusterKit
