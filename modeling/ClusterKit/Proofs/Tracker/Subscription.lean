/-
# Subscriptions among others

What is done on the receiver of a subscription leaves everything else of a
tracker as it is. A subscription with an open receiver is not forgotten: a new
one besides it changes nothing for it, and a mutation is told to it whichever
others there are.

Key definitions: `Tracker.DiffersAt`, `Tracker.IsSubscribed`, `Tracker.heard`.
Key theorems: `Tracker.IsSubscribed.of_differsAt`, `Tracker.IsSubscribed.watch`,
`Tracker.IsSubscribed.commit`.
-/
import ClusterKit.Proofs.Tracker.Call

namespace ClusterKit
namespace Tracker

/-- The trackers differ in the receiver of the subscription `id?` at most. -/
structure DiffersAt (id? : Option Nat) (t t' : Tracker) : Prop where
  objects : t'.objects = t.objects
  version : t'.version = t.version
  nextSubscription : t'.nextSubscription = t.nextSubscription
  subscriptions : t'.subscriptions = t.subscriptions
  receiver : ∀ j, id? ≠ some j → t'.receivers.get? j = t.receivers.get? j

theorem DiffersAt.refl (id? : Option Nat) (t : Tracker) : DiffersAt id? t t :=
  ⟨rfl, rfl, rfl, rfl, fun _ _ => rfl⟩

theorem differsAt_drain (t : Tracker) (id : Nat) : DiffersAt (some id) t (t.drain id).2 := by
  unfold drain
  split
  · exact .refl _ t
  · refine ⟨rfl, rfl, rfl, rfl, fun j hj => ?_⟩
    rw [Table.get?_insert, if_neg fun h => hj (congrArg some h.symm)]

theorem differsAt_close (t : Tracker) (id : Nat) : DiffersAt (some id) t (t.close id) := by
  unfold close
  split
  · exact .refl _ t
  · refine ⟨rfl, rfl, rfl, rfl, fun j hj => ?_⟩
    rw [Table.get?_insert, if_neg fun h => hj (congrArg some h.symm)]

theorem differsAt_unsubscribe (t : Tracker) (id : Nat) :
    DiffersAt (some id) t (t.unsubscribe id) := by
  refine ⟨rfl, rfl, rfl, rfl, fun j hj => ?_⟩
  unfold unsubscribe
  rw [Table.get?_erase, if_neg fun h => hj (congrArg some h.symm)]

/-- What is queued for a subscription. -/
def queued (t : Tracker) (id : Nat) : List (WatchEvent Erased) :=
  ((t.receivers.get? id).map (·.queue)).getD []

theorem drain_eq_queued (t : Tracker) (id : Nat) : (t.drain id).1 = t.queued id := by
  unfold drain queued
  cases t.receivers.get? id <;> rfl

theorem queued_drain (t : Tracker) (id : Nat) : (t.drain id).2.queued id = [] := by
  unfold drain queued
  cases hs : t.receivers.get? id with
  | none => simp [hs]
  | some s => simp [Table.get?_insert]

/-! ### Open subscriptions -/

/-- What a subscription to a namespace is sent of a mutation. -/
def heard (r : GroupVersionResource) (ns : String) (m : Mutation) : List (WatchEvent Erased) :=
  if (Subscription.mk r ns).wants m.resource m.change.event then [m.change.event] else []

/-- The subscription `id` is open, with the queue `q`. -/
structure IsSubscribed (t : Tracker) (id : Nat) (r : GroupVersionResource) (ns : String)
    (q : List (WatchEvent Erased)) : Prop where
  known : id < t.nextSubscription
  subscription : t.subscriptions.get? id = some ⟨r, ns⟩
  receiver : t.receivers.get? id = some ⟨q, true⟩

theorem isSubscribed_watch (t : Tracker) (r : GroupVersionResource) (ns : String) :
    (t.watch r ns).2.IsSubscribed (t.watch r ns).1 r ns [] := by
  unfold watch subscribe
  exact ⟨Nat.lt_succ_self _, by rw [Table.get?_insert, if_pos rfl],
    by rw [Table.get?_insert, if_pos rfl]⟩

section

variable {id : Nat} {r : GroupVersionResource} {ns : String} {q : List (WatchEvent Erased)}

namespace IsSubscribed

variable {t : Tracker} (h : t.IsSubscribed id r ns q)

include h

theorem isOpen : t.isOpen id = true := by
  unfold Tracker.isOpen
  rw [h.receiver]
  rfl

theorem queued : t.queued id = q := by
  unfold Tracker.queued
  rw [h.receiver]
  rfl

/-- A new subscription has another number, and forgets closed ones only. -/
theorem watch (r' : GroupVersionResource) (ns' : String) :
    (t.watch r' ns').2.IsSubscribed id r ns q := by
  have hne : id ≠ t.nextSubscription := Nat.ne_of_lt h.known
  unfold Tracker.watch subscribe
  refine ⟨Nat.lt_succ_of_lt h.known, ?_, ?_⟩
  · rw [Table.get?_insert]
    show (if id = t.nextSubscription then _ else (t.prune r').subscriptions.get? id) = _
    rw [if_neg hne, subscription_prune_of_isOpen _ _ _ h.isOpen, h.subscription]
  · rw [Table.get?_insert]
    show (if id = t.nextSubscription then _ else t.receivers.get? id) = _
    rw [if_neg hne, h.receiver]

/-- What is sent with a mutation joins the queue. -/
theorem commit (m : Mutation) : (t.commit m).IsSubscribed id r ns (q ++ heard r ns m) := by
  refine ⟨by rw [nextSubscription_commit]; exact h.known, ?_, ?_⟩
  · rw [subscription_commit _ _ _ h.isOpen, h.subscription]
  · rw [receiver_commit, h.subscription, h.receiver, Option.map_some, Option.any_some, heard]
    split <;> simp [Receiver.send]

/-- What is done on another receiver does not matter. -/
theorem of_differsAt {id? : Option Nat} {t' : Tracker} (hd : DiffersAt id? t t')
    (hid : id? ≠ some id) : t'.IsSubscribed id r ns q :=
  ⟨hd.nextSubscription ▸ h.known, hd.subscriptions ▸ h.subscription,
    (hd.receiver id hid).trans h.receiver⟩

/-- A drain takes the queue, and leaves the subscription open. -/
theorem drain : (t.drain id).1 = q ∧ (t.drain id).2.IsSubscribed id r ns [] := by
  unfold Tracker.drain
  rw [h.receiver]
  exact ⟨rfl, h.known, h.subscription, by rw [Table.get?_insert, if_pos rfl]⟩

end IsSubscribed

end

end Tracker
end ClusterKit
