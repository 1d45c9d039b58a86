/-
# Running informers

A running informer makes its calls on a backend, which also carries its watch.
It runs as far as it can without time passing; then only time or the backend
can move it. The time is a clock that is put forward.

Key definitions: `Completion`, `ListWatch`, `Running`, `Running.settle`,
`Running.advance`, `Running.awaitSync`.
-/
import ClusterKit.Informer.Basic
import ClusterKit.Watch.Live

namespace ClusterKit

/-- How a call comes to an end: with an outcome, never, or by giving up altogether. -/
inductive Completion (β : Type u)
  | done (r : Except ClientError β)
  | never
  | panic

/-- The calls on a backend with the state `σ` whose watches are known as `ω`:
list, watch, let what has happened reach a watch, bound how many changes can be
read from it, read it once, ask why it ended, and give it up. -/
structure ListWatch (σ : Type) (α : Type) (ω : Type) where
  list : ListParams → σ → Completion (ObjectList α) × σ
  watch : ListParams → σ → Completion ω × σ
  pump : ω → σ → ω × σ
  ready : ω → σ → Nat
  read : ω → σ → Watcher.Look α × ω × σ
  termination : ω → σ → Option Termination
  release : ω → σ → σ

/-- An informer at work: its watch, the time, when its rest ends, and whether it
is to stop. -/
structure Running (α : Type) (ω : Type) where
  informer : Informer α
  watch : Option ω
  clock : Span
  wake : Span
  cancelled : Bool

namespace Running

variable {σ α ω : Type} (K : Kind α) (L : ListWatch σ α ω) (cfg : Config)

/-- An informer that has just been started. -/
def start (clock : Span) : Running α ω :=
  ⟨.fresh, none, clock, clock, false⟩

/-- Something happens to the informer; when its round ends, it gives up its watch
and rests from now on. -/
def act (a : Informer.Act α) (r : Running α ω) (s : σ) : Running α ω × σ :=
  let i := r.informer.act K a
  match i.phase with
  | .resting => leave i
  | .finished => leave i
  | _ => ({ r with informer := i }, s)
where
  /-- The informer without its watch. -/
  leave (i : Informer α) : Running α ω × σ :=
    ({ r with
      informer := i
      watch := none
      wake := ⟨r.clock.millis + cfg.rest.millis⟩ },
      (r.watch.map fun w => L.release w s).getD s)

/-- Stop if that has been asked for. -/
def obey (r : Running α ω) (s : σ) : Running α ω × σ :=
  if r.cancelled then act K L cfg .cancel r s else (r, s)

/-- Open a watch if it is time for that. -/
def openWatch (r : Running α ω) (s : σ) : Running α ω × σ :=
  match r.informer.phase with
  | .opening =>
    match L.watch cfg.params s with
    | (.done (.ok w), s) =>
      let r : Running α ω := { r with watch := some w }
      act K L cfg (.opened (.ok ())) r s
    | (.done (.error e), s) => act K L cfg (.opened (.error e)) r s
    | (.never, s) => act K L cfg .stall r s
    | (.panic, s) => act K L cfg .cancel r s
  | _ => (r, s)

/-- List if it is time for that. -/
def makeList (r : Running α ω) (s : σ) : Running α ω × σ :=
  match r.informer.phase with
  | .listing =>
    match L.list cfg.params s with
    | (.done l, s) => act K L cfg (.listed l) r s
    | (.never, s) => act K L cfg .stall r s
    | (.panic, s) => act K L cfg .cancel r s
  | _ => (r, s)

/-- Let what has happened reach the watch. -/
def pump (r : Running α ω) (s : σ) : Running α ω × σ :=
  match r.watch with
  | some w =>
    let (w, s) := L.pump w s
    ({ r with watch := some w }, s)
  | none => (r, s)

/-- Read the watch once if it is followed, and take what it says. -/
def receive? (r : Running α ω) (s : σ) : Option (Running α ω × σ) :=
  match r.informer.phase, r.watch with
  | .following, some w =>
    match L.read w s with
    | (.change c, w, s) => some (act K L cfg (.received c) { r with watch := some w } s)
    | (.ended, w, s) =>
      some (act K L cfg (.ended (L.termination w s)) { r with watch := some w } s)
    | (.pending, _, _) => none
  | _, _ => none

/-- Read the watch until it says nothing, at most `n` times. -/
def receiveFor : Nat → Running α ω → σ → Running α ω × σ
  | 0, r, s => (r, s)
  | n + 1, r, s =>
    match receive? K L cfg r s with
    | some (r, s) => receiveFor n r s
    | none => (r, s)

/-- Follow the watch as far as it goes. -/
def follow (r : Running α ω) (s : σ) : Running α ω × σ :=
  let (r, s) := pump L r s
  let (r, s) := receiveFor K L cfg (((r.watch.map fun w => L.ready w s).getD 0) + 1) r s
  pump L r s

/-- As much of a round as can be made now. -/
def advanceRound (r : Running α ω) (s : σ) : Running α ω × σ :=
  let (r, s) := obey K L cfg r s
  let (r, s) := openWatch K L cfg r s
  let (r, s) := makeList K L cfg r s
  follow K L cfg r s

/-- Whether the rest is over at a time. -/
def restsUntil (r : Running α ω) (t : Span) : Bool :=
  r.informer.phase == .resting && r.wake.millis ≤ t.millis

/-- The most rounds that are made without time passing in between. -/
def busyRounds : Nat := 256

/-- As many rounds as can be made now, at most `n` after the first. -/
def settleFor : Nat → Running α ω → σ → Running α ω × σ
  | 0, r, s => advanceRound K L cfg r s
  | n + 1, r, s =>
    let (r, s) := advanceRound K L cfg r s
    if r.restsUntil r.clock then
      let (r, s) := act K L cfg .rested r s
      settleFor n r s
    else (r, s)

/-- The informer when nothing can move it but time or the backend. -/
def settle (r : Running α ω) (s : σ) : Running α ω × σ :=
  settleFor K L cfg busyRounds r s

/-- Let time pass up to `t`, with at most `n` rests on the way. -/
def advanceFor (t : Span) : Nat → Running α ω → σ → Running α ω × σ
  | 0, r, s => settle K L cfg { r with clock := t } s
  | n + 1, r, s =>
    let (r, s) := settle K L cfg r s
    if r.restsUntil t then advanceFor t n { r with clock := r.wake } s
    else settle K L cfg { r with clock := t } s

/-- Let a length of time pass. -/
def advance (d : Span) (r : Running α ω) (s : σ) : Running α ω × σ :=
  advanceFor K L cfg ⟨r.clock.millis + d.millis⟩ (d.millis + 1) r s

/-- Whether it is known if a list gets to the cache, and what. -/
def syncKnown? (r : Running α ω) : Option Bool :=
  if r.informer.synced then some true
  else if r.informer.phase == .finished then some false
  else none

/-- Let time pass until a list has got to the cache or never will, before `t` and
with at most `n` rests on the way. -/
def awaitSyncFor (t : Span) : Nat → Running α ω → σ → Option Bool × Running α ω × σ
  | 0, r, s => (none, { r with clock := t }, s)
  | n + 1, r, s =>
    let (r, s) := settle K L cfg r s
    match r.syncKnown? with
    | some b => (some b, r, s)
    | none =>
      if r.informer.phase == .resting && r.wake.millis < t.millis then
        awaitSyncFor t n { r with clock := r.wake } s
      else (none, { r with clock := t }, s)

/-- Wait for the first list at most for a length of time. -/
def awaitSync (d : Span) (r : Running α ω) (s : σ) : Option Bool × Running α ω × σ :=
  match r.syncKnown? with
  | some b => (some b, r, s)
  | none =>
    if d.millis = 0 then (none, r, s)
    else awaitSyncFor K L cfg ⟨r.clock.millis + d.millis⟩ (d.millis + 1) r s

end Running
end ClusterKit
