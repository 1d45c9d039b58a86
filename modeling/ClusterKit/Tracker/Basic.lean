/-
# The object tracker

A tracker stands in for the store of a server. It keeps objects by collection,
namespace and name, counts the writes that stored an object, and passes every
change on to the subscriptions that are concerned.

A subscription has two ends, the one that the tracker sends to and the one that
is read. The tracker forgets the first where it finds the second closed or gone.

Key definitions: `Tracker`, `Tracker.find?`, `Tracker.list`, `Tracker.watch`,
`Tracker.prune`, `Tracker.publish`.
-/
import ClusterKit.Object.List
import ClusterKit.Watch.Event

namespace ClusterKit

/-- Where an object is kept within its collection; outside of namespaces the
first part is empty. -/
structure ObjectKey where
  ns : String
  name : String
  deriving DecidableEq, Repr

namespace ObjectKey

/-- Keys are ordered by namespace, then name. -/
instance : Ord ObjectKey :=
  ⟨compareLex (compareOn (·.ns)) (compareOn (·.name))⟩

instance : Std.TransOrd ObjectKey :=
  inferInstanceAs (Std.TransCmp (compareLex _ _))

instance : Std.LawfulEqOrd ObjectKey where
  eq_of_compare {a b} h := by
    obtain ⟨h₁, h₂⟩ := compareLex_eq_eq.mp (show compareLex _ _ a b = .eq from h)
    cases a
    cases b
    congr
    · exact Std.LawfulEqCmp.eq_of_compare h₁
    · exact Std.LawfulEqCmp.eq_of_compare h₂

end ObjectKey

/-- What the tracker holds of a subscription: it is to the changes in a namespace
of a collection, or in all of them for the empty name. -/
structure Subscription where
  resource : GroupVersionResource
  ns : String
  deriving DecidableEq

/-- The receiving end of a subscription. What has been sent and not yet taken is
queued; once it is closed it gets nothing more. -/
structure Receiver where
  queue : List (WatchEvent Erased)
  isOpen : Bool
  deriving DecidableEq

namespace Subscription

/-- Whether a call on namespace `ns` reaches into namespace `inside`. -/
def covers (ns inside : String) : Bool :=
  ns.isEmpty || ns == inside

/-- The namespace that an event belongs to. -/
def eventNamespace (e : WatchEvent Erased) : String :=
  (e.object?.bind (·.metadata.ns)).getD ""

/-- Whether an event in the collection `r` is sent. -/
def wants (s : Subscription) (r : GroupVersionResource) (e : WatchEvent Erased) : Bool :=
  s.resource == r && covers s.ns (eventNamespace e)

end Subscription

/-- The receiver after an event has been sent, which fails if it is closed. -/
def Receiver.send (e : WatchEvent Erased) (c : Receiver) : Receiver :=
  if c.isOpen then { c with queue := c.queue ++ [e] } else c

/-- The receiver after it has been closed, which keeps what is queued. -/
def Receiver.close (c : Receiver) : Receiver :=
  { c with isOpen := false }

/-- A store of objects, with the receivers that there are of its subscriptions.
It notices that a receiver is closed or gone when it next has to do with the
collection of the subscription. -/
structure Tracker where
  objects : Table GroupVersionResource (Table ObjectKey Erased)
  subscriptions : Table Nat Subscription
  receivers : Table Nat Receiver
  version : Nat
  nextSubscription : Nat
  deriving DecidableEq

namespace Tracker

/-- The tracker without objects. -/
def empty : Tracker :=
  ⟨.empty, .empty, .empty, 0, 0⟩

instance : Inhabited Tracker := ⟨empty⟩

/-! ### Objects -/

/-- The objects of a collection. -/
def collection (t : Tracker) (r : GroupVersionResource) : Table ObjectKey Erased :=
  (t.objects.get? r).getD .empty

/-- The object at a key. -/
def find? (t : Tracker) (r : GroupVersionResource) (k : ObjectKey) : Option Erased :=
  (t.collection r).get? k

/-- The tracker with an object at a key. -/
def put (t : Tracker) (r : GroupVersionResource) (k : ObjectKey) (o : Erased) : Tracker :=
  { t with objects := t.objects.insert r ((t.collection r).insert k o) }

/-- The tracker without the object at a key. -/
def remove (t : Tracker) (r : GroupVersionResource) (k : ObjectKey) : Tracker :=
  { t with objects := t.objects.insert r ((t.collection r).erase k) }

/-- The object of a name. -/
def get (t : Tracker) (r : GroupVersionResource) (ns name : String) : Except Status Erased :=
  match t.find? r ⟨ns, name⟩ with
  | some o => .ok o
  | none => .error (.notFound r name)

/-- The objects of a namespace, or of all of them for the empty name, in the
order of their keys. -/
def list (t : Tracker) (r : GroupVersionResource) (ns : String) : ObjectList Erased :=
  ⟨.atVersion (toString t.version),
    ((t.collection r).filter fun k _ => Subscription.covers ns k.ns).values⟩

/-! ### Subscriptions -/

/-- Whether there is an open receiver of a subscription. -/
def isOpen (t : Tracker) (id : Nat) : Bool :=
  (t.receivers.get? id).any (·.isOpen)

/-- Forget the subscriptions to a collection that have no open receiver. -/
def prune (t : Tracker) (r : GroupVersionResource) : Tracker :=
  { t with subscriptions := t.subscriptions.filter fun id s => s.resource != r || t.isOpen id }

/-- Send an event to the subscriptions that it concerns. -/
def send (t : Tracker) (r : GroupVersionResource) (e : WatchEvent Erased) : Tracker :=
  { t with receivers := t.receivers.map fun id c =>
      if (t.subscriptions.get? id).any (·.wants r e) then c.send e else c }

/-- Pass an event on to the subscriptions that are still open. -/
def publish (t : Tracker) (r : GroupVersionResource) (e : WatchEvent Erased) : Tracker :=
  (t.prune r).send r e

/-- Take up a subscription, with an open receiver. -/
def subscribe (t : Tracker) (s : Subscription) : Nat × Tracker :=
  (t.nextSubscription,
    { t with
      subscriptions := t.subscriptions.insert t.nextSubscription s
      receivers := t.receivers.insert t.nextSubscription ⟨[], true⟩
      nextSubscription := t.nextSubscription + 1 })

/-- Subscribe to the changes in a namespace from now on. -/
def watch (t : Tracker) (r : GroupVersionResource) (ns : String) : Nat × Tracker :=
  (t.prune r).subscribe ⟨r, ns⟩

/-- The number of open subscriptions to a collection. -/
def watcherCount (t : Tracker) (r : GroupVersionResource) : Nat :=
  (t.subscriptions.filter fun id s => s.resource == r && t.isOpen id).size

/-- What is queued for a subscription, which takes it. -/
def drain (t : Tracker) (id : Nat) : List (WatchEvent Erased) × Tracker :=
  match t.receivers.get? id with
  | none => ([], t)
  | some c => (c.queue, { t with receivers := t.receivers.insert id { c with queue := [] } })

/-- Close the receiver of a subscription. -/
def close (t : Tracker) (id : Nat) : Tracker :=
  match t.receivers.get? id with
  | none => t
  | some c => { t with receivers := t.receivers.insert id c.close }

/-- Drop the receiver of a subscription with what is queued. -/
def unsubscribe (t : Tracker) (id : Nat) : Tracker :=
  { t with receivers := t.receivers.erase id }

/-- Whether a subscription has nothing queued and gets nothing more. -/
def hasEnded (t : Tracker) (id : Nat) : Bool :=
  match t.receivers.get? id with
  | none => true
  | some c => !c.isOpen && c.queue.isEmpty

/-- The form that shows how much is stored. -/
def debug (t : Tracker) : String :=
  Status.debugParts "ObjectTracker"
    [("resources", toString t.objects.size), ("resource_version", toString t.version)]

end Tracker
end ClusterKit
