/-
# Reactors

A reactor answers actions or passes on them. Some answer from a tracker, the
others by a rule that looks at the action only. A chain of reactors is asked
in its order, and the first that answers decides.

Key definitions: `Reply`, `Tracker.react`, `Tracker.reactWatch`, `ObjectReactor`,
`WatchReactor`, `ObjectReactor.ask`, `WatchReactor.ask`.
-/
import ClusterKit.Fake.Action
import ClusterKit.Selector.Parse
import ClusterKit.Tracker.Write
import ClusterKit.Watch.Live

namespace ClusterKit

/-- An answer to an action other than a watch. -/
inductive Reply
  | object (o : Erased)
  | list (l : ObjectList Erased)
  | empty
  deriving DecidableEq

/-- What a reactor says to an action: an outcome, or nothing. -/
abbrev Reaction (β : Type) := Option (Except ClientError β)

/-- A failure by a status. -/
def Reaction.fail (s : Status) : Reaction β :=
  some (.error (.api s))

/-! ### Answers from a tracker -/

namespace Tracker

/-- The selector of a list or a watch on the collection `r`. -/
def selector (r : GroupVersionResource) (p : ListParams) : Except ClientError Selector :=
  match Selector.parseOptional p.labelSelector with
  | .ok s => .ok s
  | .error e => .error (.api (.invalid r "" e.message))

/-- The objects of a list that a selector selects. -/
def select (s : Selector) (l : ObjectList Erased) : ObjectList Erased :=
  { l with items := l.items.filter fun o => s.selects o.metadata.labelTable }

/-- The outcome of a write, which answers with what `f` makes of the object. -/
def written (t : Tracker) (f : Erased → Reply) :
    Except Status (Erased × Tracker) → Reaction Reply × Tracker
  | .ok (o, t) => (some (.ok (f o)), t)
  | .error s => (Reaction.fail s, t)

/-- Answer an action from the tracker, unless it is a watch. -/
def react (t : Tracker) (a : Action) : Reaction Reply × Tracker :=
  match a.deed with
  | .get name =>
    match t.get a.resource a.ns name with
    | .ok o => (some (.ok (.object o)), t)
    | .error s => (Reaction.fail s, t)
  | .list p =>
    match selector a.resource p with
    | .ok s => (some (.ok (.list (select s (t.list a.resource a.ns)))), t)
    | .error e => (some (.error e), t)
  | .create o p => t.written .object (t.create a.resource a.ns o p)
  | .update o p => t.written .object (t.update a.resource a.ns o p)
  | .delete name p => t.written (fun _ => .empty) (t.delete a.resource a.ns name p)
  | .watch _ => (none, t)

/-- Answer a watch by a subscription to the tracker. -/
def reactWatch (t : Tracker) (a : Action) : Reaction RawSource × Tracker :=
  match a.deed with
  | .watch p =>
    match selector a.resource p with
    | .ok s =>
      let (id, t) := t.watch a.resource a.ns
      (some (.ok (.tracker ⟨id, s⟩)), t)
    | .error e => (some (.error e), t)
  | _ => (none, t)

end Tracker

/-! ### Reactors -/

/-- A reactor to actions other than watches: by the tracker of the cluster, by a
tracker of its own, or by a rule. -/
inductive ObjectReactor
  | shared
  | store (t : Tracker)
  | rule (f : Action → Reaction Reply)

/-- A reactor to watches: by the tracker of the cluster, or by a rule. -/
inductive WatchReactor
  | shared
  | rule (f : Action → Reaction RawSource)

namespace ObjectReactor

/-- What the reactor says to an action, and what becomes of it and the tracker. -/
def react (a : Action) (t : Tracker) : ObjectReactor → Reaction Reply × ObjectReactor × Tracker
  | .shared =>
    let (r, t) := t.react a
    (r, .shared, t)
  | .store own =>
    let (r, own) := own.react a
    (r, .store own, t)
  | .rule f => (f a, .rule f, t)

/-- Ask the reactors of a chain whose patterns match, until one answers. -/
def ask (a : Action) (t : Tracker) :
    List (Pattern × ObjectReactor) → Reaction Reply × List (Pattern × ObjectReactor) × Tracker
  | [] => (none, [], t)
  | (p, r) :: chain =>
    if p.suits a then
      match r.react a t with
      | (some outcome, r, t) => (some outcome, (p, r) :: chain, t)
      | (none, r, t) =>
        let (outcome, chain, t) := ask a t chain
        (outcome, (p, r) :: chain, t)
    else
      let (outcome, chain, t) := ask a t chain
      (outcome, (p, r) :: chain, t)

end ObjectReactor

namespace WatchReactor

/-- What the reactor says to an action, and what becomes of the tracker. -/
def react (a : Action) (t : Tracker) : WatchReactor → Reaction RawSource × Tracker
  | .shared => t.reactWatch a
  | .rule f => (f a, t)

/-- Ask the reactors of a chain whose patterns match, until one answers. -/
def ask (a : Action) (t : Tracker) : List (Pattern × WatchReactor) → Reaction RawSource × Tracker
  | [] => (none, t)
  | (p, r) :: chain =>
    if p.suits a then
      match r.react a t with
      | (some outcome, t) => (some outcome, t)
      | (none, t) => ask a t chain
    else ask a t chain

end WatchReactor
end ClusterKit
