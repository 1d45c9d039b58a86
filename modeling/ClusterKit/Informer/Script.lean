/-
# Scripted collections

A script says beforehand what lists and watches of a collection answer: each
call takes its entry, and the last entry goes for all further calls. Each watch
that is opened is a stream, to which more can be sent until it is closed. A
script without entries lists nothing and opens watches that end at once.

Key definitions: `ListEntry`, `WatchEntry`, `Script`, `ListWatch.ofScript`.
-/
import ClusterKit.Informer.Loop

namespace ClusterKit

/-- What a list answers. -/
inductive ListEntry (α : Type)
  | items (objs : List α)
  | error (e : ClientError)
  | panic
  | hang

/-- What a watch answers: a failure, or a stream of items that is still open behind
them or not. -/
inductive WatchEntry
  | error (e : ClientError)
  | stream (items : List RawItem) (stillOpen : Bool)

/-- A call of either sort. -/
structure Script.Call where
  verb : String
  params : ListParams
  deriving DecidableEq

/-- A watch that was opened, and whether more can be sent to it. -/
structure Script.Stream (α : Type) where
  watcher : Watcher α
  sending : Bool

/-- What is answered, to whom it was answered, and the streams of all watches. -/
structure Script (α : Type) where
  resource : ApiResource
  lists : List (ListEntry α)
  watches : List WatchEntry
  calls : List Script.Call
  streams : List (Script.Stream α)

namespace Script

variable {α : Type} (K : Kind α)

/-- The entry of the call number `n`, or `default` if there are no entries. -/
def entry (default : β) (entries : List β) (n : Nat) : β :=
  (entries[n]?.or entries.getLast?).getD default

/-- How many calls of a sort there were. -/
def count (s : Script α) (verb : String) : Nat :=
  (s.calls.filter (·.verb == verb)).length

/-- The script with one more call. -/
def record (s : Script α) (verb : String) (p : ListParams) : Script α :=
  { s with calls := s.calls ++ [⟨verb, p⟩] }

/-- The outcome of a list. -/
def list (p : ListParams) (s : Script α) : Completion (ObjectList α) × Script α :=
  let outcome : Completion (ObjectList α) :=
    match entry (.items []) s.lists (s.count "list") with
    | .items objs => .done (.ok ⟨.empty, objs⟩)
    | .error e => .done (.error e)
    | .hang => .never
    | .panic => .panic
  (outcome, s.record "list" p)

/-- The outcome of a watch, which is the number of its stream. -/
def watch (p : ListParams) (s : Script α) : Completion Nat × Script α :=
  let recorded := s.record "watch" p
  match entry (.stream [] false) s.watches (s.count "watch") with
  | .error e => (.done (.error e), recorded)
  | .stream items stillOpen =>
    let stream : Stream α := ⟨.ofItems s.resource items (!stillOpen), stillOpen⟩
    (.done (.ok s.streams.length), { recorded with streams := s.streams ++ [stream] })

/-- The script with its stream number `n` changed by `f`. -/
def onStream (n : Nat) (f : Stream α → Stream α) (s : Script α) : Script α :=
  { s with streams := s.streams.modify n f }

/-- The script with the watcher of its stream number `n` changed by `f`. -/
def onWatcher (n : Nat) (f : Watcher α → Watcher α) (s : Script α) : Script α :=
  s.onStream n fun stream => { stream with watcher := f stream.watcher }

/-- Send items to a stream, if more can be sent to it. -/
def push? (n : Nat) (items : List RawItem) (s : Script α) : Option (Script α) :=
  match s.streams[n]? with
  | some stream =>
    if stream.sending then some (s.onWatcher n (LiveWatcher.receiveAll K items)) else none
  | none => none

/-- Send nothing more to a stream. -/
def close (n : Nat) (s : Script α) : Script α :=
  s.onStream n fun stream => ⟨stream.watcher.act K .close, false⟩

/-- Whether a stream is open at both ends. -/
def Stream.isOpen (stream : Stream α) : Bool :=
  stream.sending && !stream.watcher.sourceReleased

/-- Read from a stream once, and let its pump move. -/
def read (n : Nat) (s : Script α) : Watcher.Look α × Script α :=
  match s.streams[n]? with
  | some stream =>
    let (look, w) := stream.watcher.read K
    (look, s.onWatcher n fun _ => w.settle K)
  | none => (.pending, s)

end Script

/-- The calls of a script. -/
def ListWatch.ofScript (K : Kind α) : ListWatch (Script α) α Nat where
  list := Script.list
  watch := Script.watch
  pump n s := (n, s.onWatcher n (Watcher.settle K))
  ready n s := ((s.streams[n]?.map fun stream => stream.watcher.backlog.length).getD 0) + 2
  read n s :=
    let (look, s) := s.read K n
    (look, n, s)
  termination n s := s.streams[n]?.bind (·.watcher.termination)
  release n s := s.onWatcher n fun w => (w.stop K).settle K

end ClusterKit
