/-
# Fake clientsets

A fake clientset stands in for a whole cluster: a tracker, two chains of
reactors, of which both begin as the single reactor that answers from the
tracker, a journal of all actions, and a scheme. Reactors are put in front of
a chain or behind it.

Key definitions: `Clientset`, `Clientset.invoke`, `Clientset.invokeWatch`.
-/
import ClusterKit.Fake.Reactor

namespace ClusterKit

/-- A fake cluster. The journal has its actions in order. -/
structure Clientset where
  tracker : Tracker
  objectChain : List (Pattern × ObjectReactor)
  watchChain : List (Pattern × WatchReactor)
  journal : List Action
  scheme : Scheme

namespace Clientset

/-- The cluster without objects whose types are registered in a scheme. -/
def ofScheme (s : Scheme) : Clientset :=
  ⟨.empty, [(⟨"*", "*"⟩, .shared)], [(⟨"watch", "*"⟩, .shared)], [], s⟩

/-- The cluster with a reactor behind all others. -/
def append (c : Clientset) (verb resource : String) (r : ObjectReactor) :
    Except Panic Clientset := do
  let p ← Pattern.make verb resource
  return { c with objectChain := c.objectChain ++ [(p, r)] }

/-- The cluster with a reactor in front of all others. -/
def prepend (c : Clientset) (verb resource : String) (r : ObjectReactor) :
    Except Panic Clientset := do
  let p ← Pattern.make verb resource
  return { c with objectChain := (p, r) :: c.objectChain }

/-- The cluster with a reactor to watches behind all others. -/
def appendWatch (c : Clientset) (resource : String) (r : WatchReactor) : Clientset :=
  { c with watchChain := c.watchChain ++ [(⟨"watch", resource⟩, r)] }

/-- The cluster with a reactor to watches in front of all others. -/
def prependWatch (c : Clientset) (resource : String) (r : WatchReactor) : Clientset :=
  { c with watchChain := (⟨"watch", resource⟩, r) :: c.watchChain }

/-- The cluster with an empty journal. -/
def clearJournal (c : Clientset) : Clientset :=
  { c with journal := [] }

/-- The failure of an action that no reactor answers. -/
def unhandled (a : Action) : ClientError :=
  .unhandled a.verb a.resource.resource

/-- The outcome of an action, which goes into the journal in any case. -/
def invoke (a : Action) (c : Clientset) : Except ClientError Reply × Clientset :=
  let (outcome, chain, t) := ObjectReactor.ask a c.tracker c.objectChain
  (outcome.getD (.error (unhandled a)),
    { c with tracker := t, objectChain := chain, journal := c.journal ++ [a] })

/-- The outcome of a watch, which goes into the journal in any case. -/
def invokeWatch (a : Action) (c : Clientset) : Except ClientError RawSource × Clientset :=
  let (outcome, t) := WatchReactor.ask a c.tracker c.watchChain
  (outcome.getD (.error (unhandled a)), { c with tracker := t, journal := c.journal ++ [a] })

/-- The form that shows how much there is. -/
def debug (c : Clientset) : String :=
  Status.debugParts "FakeClientset"
    [("tracker", c.tracker.debug), ("actions", toString c.journal.length)]

end Clientset
end ClusterKit
