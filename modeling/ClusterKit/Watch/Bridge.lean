/-
# Watchers

A watcher turns raw items into typed changes. Its pump takes one item after
the other from its source, and hands the changes over through a channel with
a single place; while the place is taken the pump waits with one more change.
On its way out it lets go of the source first, then it records why the watch
has ended, and only then it lets go of the channel. The consumer reads from the
channel, and anyone who has the watcher's handle may stop it.

`Watcher.act?` says which moves are possible and what they do, one atomic move
at a time, so that a sequence of moves is any interleaving of source, pump,
consumer and stops. `Watcher.settle` makes the pump move until it waits, and
`Watcher.read` lets a consumer look once while the pump stands still.

Key definitions: `Watcher`, `Watcher.act?`, `Watcher.settle`, `Watcher.read`.
-/
import ClusterKit.Watch.Termination

namespace ClusterKit

/-- Where the pump of a watcher stands: it looks for an item, it has a change for
the channel, it has found why the watch ends, it has recorded that, or it has let
go of the channel. -/
inductive Pump (α : Type u)
  | taking
  | offering (c : Change α)
  | ending (t : Termination)
  | leaving
  | finished
  deriving DecidableEq

/-- Where the consumer of a watcher stands; what it has taken may be the end. -/
inductive Consumer (α : Type u)
  | idle
  | waiting
  | holding (c : Option (Change α))
  deriving DecidableEq

/-- A watcher: what the source has sent and the pump has not taken, whether
the source has ended behind that, how many items were taken, the place of the
channel, whether the consumer still receives, how many stops are under way,
whether it has been stopped, and why it ended. -/
structure Watcher (α : Type u) where
  resource : ApiResource
  backlog : List RawItem
  ended : Bool
  pulled : Nat
  pump : Pump α
  place : Option (Change α)
  receiving : Bool
  consumer : Consumer α
  stops : Nat
  stopped : Bool
  termination : Option Termination

namespace Watcher

/-- A watcher of the resource `r` over a source that has sent `items` and
perhaps ended. -/
def ofItems (r : ApiResource) (items : List RawItem) (ended : Bool) : Watcher α :=
  ⟨r, items, ended, 0, .taking, none, true, .idle, 0, false, none⟩

/-! ### Moves -/

/-- A move of the source, the pump, the consumer or someone who stops. A stop
records its cause first and marks the watcher then, and the owner of the watcher
also gives up what is buffered. A read looks for the mark before and after it
receives. -/
inductive Act
  | send (item : RawItem)
  | close
  | notice
  | take
  | hand
  | record
  | leave
  | beginStop
  | endStop
  | beginRead
  | receive
  | endRead
  | abandonRead
  | discard

/-- The watcher with a cause of its end, unless it has one. -/
def record (t : Termination) (w : Watcher α) : Watcher α :=
  { w with termination := w.termination.or (some t) }

/-- The watcher whose pump has let go of the source, for `t`. -/
def finish (t : Termination) (w : Watcher α) : Watcher α :=
  { w with pump := .ending t }

/-- The watcher whose consumer receives nothing more. -/
def discard (w : Watcher α) : Watcher α :=
  { w with receiving := false, place := none }

/-- Whether the pump still has the source. -/
def isPumping (w : Watcher α) : Bool :=
  match w.pump with
  | .taking | .offering _ => true
  | _ => false

/-- Whether the pump still has the channel. -/
def isOpen (w : Watcher α) : Bool :=
  match w.pump with
  | .finished => false
  | _ => true

/-- The pump takes the next item, or finds the end of the source. -/
def take? (K : Kind α) (w : Watcher α) : Option (Watcher α) :=
  match w.pump, w.backlog with
  | .taking, item :: backlog =>
    let w := { w with backlog := backlog, pulled := w.pulled + 1 }
    match Forwarded.ofItem K w.resource item with
    | .pass c => some { w with pump := .offering c }
    | .skip => some w
    | .finish t => some (w.finish t)
  | .taking, [] => if w.ended then some (w.finish .closed) else none
  | _, _ => none

/-- The pump hands its change over, or finds that nobody receives. -/
def hand? (w : Watcher α) : Option (Watcher α) :=
  match w.pump with
  | .offering c =>
    if !w.receiving then some (w.finish .stopped)
    else if w.place.isNone then some { w with pump := .taking, place := some c }
    else none
  | _ => none

/-- The pump records why the watch ends. -/
def recordEnd? (w : Watcher α) : Option (Watcher α) :=
  match w.pump with
  | .ending t => some { w.record t with pump := .leaving }
  | _ => none

/-- The pump lets go of the channel. -/
def leave? (w : Watcher α) : Option (Watcher α) :=
  match w.pump with
  | .leaving => some { w with pump := .finished }
  | _ => none

/-- The consumer takes what is in the channel, or its end. -/
def receive? (w : Watcher α) : Option (Watcher α) :=
  match w.consumer, w.place with
  | .waiting, some c => some { w with consumer := .holding (some c), place := none }
  | .waiting, none =>
    if w.isOpen && w.receiving then none else some { w with consumer := .holding none }
  | _, _ => none

/-- What a move leads to, if it is possible, and what the consumer reads by it:
nothing, the end, or a change. -/
def act? (K : Kind α) (w : Watcher α) : Act → Option (Watcher α × Option (Option (Change α)))
  | .send item =>
    if w.ended then none else some ({ w with backlog := w.backlog ++ [item] }, none)
  | .close => some ({ w with ended := true }, none)
  | .notice => if w.stopped && w.isPumping then some (w.finish .stopped, none) else none
  | .take => (w.take? K).map (·, none)
  | .hand => w.hand?.map (·, none)
  | .record => w.recordEnd?.map (·, none)
  | .leave => w.leave?.map (·, none)
  | .beginStop => some ({ w.record .stopped with stops := w.stops + 1 }, none)
  | .endStop =>
    if w.stops = 0 then none else some ({ w with stops := w.stops - 1, stopped := true }, none)
  | .beginRead =>
    match w.consumer with
    | .idle =>
      if w.stopped then some (w.discard, some none) else some ({ w with consumer := .waiting }, none)
    | _ => none
  | .receive => w.receive?.map (·, none)
  | .endRead =>
    match w.consumer with
    | .holding c =>
      let w := { w with consumer := .idle }
      if w.stopped then some (w.discard, some none) else some (w, some c)
    | _ => none
  | .abandonRead =>
    match w.consumer with
    | .waiting => some ({ w with consumer := .idle }, none)
    | _ => none
  | .discard =>
    match w.consumer with
    | .idle => if w.stopped then some (w.discard, none) else none
    | _ => none

/-- The watcher after a move, which does nothing if it is not possible. -/
def act (K : Kind α) (a : Act) (w : Watcher α) : Watcher α :=
  match w.act? K a with
  | some (w, _) => w
  | none => w

/-! ### Settling -/

/-- One move of the pump, which looks for a stop first. -/
def pumpStep? (K : Kind α) (w : Watcher α) : Option (Watcher α) :=
  if w.stopped && w.isPumping then some (w.finish .stopped)
  else (w.take? K).or (w.hand?.or (w.recordEnd?.or w.leave?))

/-- A bound on the moves that the pump can make. -/
def pumpBound (w : Watcher α) : Nat :=
  2 * w.backlog.length +
    match w.pump with
    | .taking => 3
    | .offering _ => 4
    | .ending _ => 2
    | .leaving => 1
    | .finished => 0

/-- The watcher after at most `n` moves of the pump. -/
def pumpFor (K : Kind α) : Nat → Watcher α → Watcher α
  | 0, w => w
  | n + 1, w =>
    match w.pumpStep? K with
    | some w => pumpFor K n w
    | none => w

/-- The watcher when its pump waits. -/
def settle (K : Kind α) (w : Watcher α) : Watcher α :=
  pumpFor K w.pumpBound w

/-! ### Use of a watcher -/

/-- What a consumer finds that looks once. -/
inductive Look (α : Type u)
  | change (c : Change α)
  | ended
  | pending

/-- Look for the next change. The pump does not move meanwhile. -/
def read (K : Kind α) (w : Watcher α) : Look α × Watcher α :=
  match w.act? K .beginRead with
  | some (w, some _) => (.ended, w)
  | none => (.pending, w)
  | some (w, none) =>
    match w.receive? with
    | none => (.pending, w.act K .abandonRead)
    | some w =>
      match w.act? K .endRead with
      | some (w, some (some c)) => (.change c, w)
      | some (w, _) => (.ended, w)
      | none => (.pending, w)

/-- Look until there is no change, at most `n` times; the pump moves before each look. -/
def readFor (K : Kind α) : Nat → Watcher α → List (Change α) × Bool × Watcher α
  | 0, w => ([], false, w)
  | n + 1, w =>
    match (w.settle K).read K with
    | (.change c, w) =>
      let (cs, ended, w) := readFor K n w
      (c :: cs, ended, w)
    | (.ended, w) => ([], true, w)
    | (.pending, w) => ([], false, w)

/-- All changes that a consumer can read, and whether it has found the end. -/
def readAll (K : Kind α) (w : Watcher α) : List (Change α) × Bool × Watcher α :=
  readFor K (w.backlog.length + 3) w

/-- The watcher after a stop through its handle. -/
def stopThroughHandle (K : Kind α) (w : Watcher α) : Watcher α :=
  (w.act K .beginStop).act K .endStop

/-- The watcher after a stop by its owner, who also gives up what is buffered. -/
def stop (K : Kind α) (w : Watcher α) : Watcher α :=
  (w.stopThroughHandle K).discard

/-- Whether the pump has let go of the source. -/
def sourceReleased (w : Watcher α) : Bool :=
  !w.isPumping

end Watcher
end ClusterKit
