/-
# What subscriptions are told

A subscription that stays open is told of exactly the mutations in its
collection and namespace, in their order, whatever happens to other
subscriptions in between. What it is told joins its queue, and only its own
drain takes from there.

Key definitions: `Tracker.Entry.change?`, `Tracker.changes`, `Tracker.delivered`.
Key theorems: `Tracker.Entry.isSubscribed_after`, `Tracker.delivered_eq`.
-/
import ClusterKit.Proofs.Tracker.History
import ClusterKit.Proofs.Tracker.Subscription

namespace ClusterKit

namespace Tracker

/-! ### Places of stored objects -/

/-- Every object is stored where it says it belongs. -/
def Placed (t : Tracker) : Prop :=
  ∀ r k o, t.find? r k = some o → o.IsAt k

theorem placed_empty : empty.Placed := by
  intro r k o h
  rw [find?_empty] at h
  cases h

namespace Entry

theorem placed_after {e : Entry} (h : e.before.Placed) : e.after.Placed := by
  intro r k o ho
  rcases e.quiet_or_makes with hq | ⟨m, hm⟩
  · rw [hq.after, find?_tend] at ho
    exact h r k o ho
  · rw [hm.after, find?_commit] at ho
    split at ho
    · rename_i hk
      exact hk.2 ▸ hm.fits.place o ho
    · exact h r k o ho

/-- What a mutation is about is, or was, stored at its key. -/
theorem Makes.find?_object {e : Entry} {m : Mutation} (h : e.Makes m) :
    e.after.find? m.resource m.key = some m.change.object ∨
      e.before.find? m.resource m.key = some m.change.object := by
  have hc := h.fits.change
  rw [h.find?_after]
  cases hm : m.change with
  | added o => exact .inl rfl
  | modified o => exact .inl rfl
  | deleted o =>
    right
    rw [hm] at hc
    cases hf : e.before.find? m.resource m.key with
    | none => simp [hf, Change.between?, Change.result?] at hc
    | some old =>
      rw [hf] at hc
      simp only [Change.between?, Change.result?, Option.some.injEq, Change.deleted.injEq] at hc
      rw [hc]
      rfl

theorem Makes.object_isAt {e : Entry} {m : Mutation} (h : e.Makes m) (hp : e.before.Placed) :
    m.change.object.IsAt m.key :=
  h.find?_object.elim (placed_after hp _ _ _) (hp _ _ _)

end Entry

theorem placed_run {t : Tracker} (h : t.Placed) (cs : List Call) : (t.run cs).Placed := by
  induction cs generalizing t with
  | nil => exact h
  | cons c cs ih => exact ih (Entry.placed_after (e := ⟨t, c⟩) h)

/-! ### What is delivered -/

/-- Whether the call ends a subscription. -/
def Call.ends (id : Nat) : Call → Bool
  | .close j => j == id
  | .unsubscribe j => j == id
  | _ => false

namespace Entry

/-- The change that the call makes in a namespace of a collection, or in all of
them for the empty name. -/
def change? (r : GroupVersionResource) (ns : String) (e : Entry) : Option (Change Erased) :=
  match e.mutation? with
  | some m => if m.resource = r ∧ Subscription.covers ns m.key.ns then some m.change else none
  | none => none

/-- What the call takes from a subscription. -/
def takes (id : Nat) (e : Entry) : List (WatchEvent Erased) :=
  match e.call, e.answer with
  | .drain j, .ok (.events es) => if j = id then es else []
  | _, _ => []

end Entry

/-- The changes that a run makes in a namespace of a collection. -/
def changes (t : Tracker) (r : GroupVersionResource) (ns : String) (cs : List Call) :
    List (Change Erased) :=
  (t.history cs).filterMap (Entry.change? r ns)

/-- What a run delivers to a subscription: what is taken on the way, and what is
left in the queue. -/
def delivered (t : Tracker) (id : Nat) (cs : List Call) : List (WatchEvent Erased) :=
  (t.history cs).flatMap (Entry.takes id) ++ (t.run cs).queued id

section

variable {id : Nat} {r : GroupVersionResource} {ns : String} {q : List (WatchEvent Erased)}

/-- A subscription changes by a call of others in no way, and by a drain of its own
it loses its queue. -/
theorem IsSubscribed.tend {t : Tracker} (h : t.IsSubscribed id r ns q) {c : Call}
    (hc : c.ends id = false) : ∃ q', (c.tend t).IsSubscribed id r ns q' ∧
      (Entry.mk t c).takes id ++ q' = q := by
  cases c with
  | watch r' ns' => exact ⟨q, h.watch r' ns', rfl⟩
  | drain j =>
    by_cases hj : j = id
    · subst hj
      refine ⟨[], h.drain.2, ?_⟩
      simp [Entry.takes, Entry.answer, perform, h.drain.1]
    · refine ⟨q, h.of_differsAt (differsAt_drain t j) (mt Option.some.inj hj), ?_⟩
      simp [Entry.takes, Entry.answer, perform, hj]
  | close j =>
    have hj : j ≠ id := by simpa [Call.ends] using hc
    exact ⟨q, h.of_differsAt (differsAt_close t j) (mt Option.some.inj hj), rfl⟩
  | unsubscribe j =>
    have hj : j ≠ id := by simpa [Call.ends] using hc
    exact ⟨q, h.of_differsAt (differsAt_unsubscribe t j) (mt Option.some.inj hj), rfl⟩
  | _ => exact ⟨q, h, rfl⟩

namespace Entry

theorem Makes.takes {e : Entry} {m : Mutation} (h : e.Makes m) : e.takes id = [] := by
  have hw : e.call.isWrite = true := (Bool.and_eq_true_iff.mp h.isEffective).1
  obtain ⟨t, c⟩ := e
  cases c with
  | drain j => cases hw
  | _ => rfl

theorem Makes.change? {e : Entry} {m : Mutation} (h : e.Makes m) : e.change? r ns =
    if m.resource = r ∧ Subscription.covers ns m.key.ns then some m.change else none := by
  unfold Entry.change?
  rw [h.mutation]

theorem IsQuiet.change? {e : Entry} (h : e.IsQuiet) : e.change? r ns = none := by
  unfold Entry.change?
  rw [h.mutation]

/-- Whether a subscription wants to know of a mutation is a matter of the key. -/
theorem Makes.wants {e : Entry} {m : Mutation} (h : e.Makes m) (hp : e.before.Placed) :
    (Subscription.mk r ns).wants m.resource m.change.event =
      decide (m.resource = r ∧ Subscription.covers ns m.key.ns) := by
  have hns : Subscription.eventNamespace m.change.event = m.key.ns := by
    unfold Subscription.eventNamespace
    rw [Change.object?_event]
    exact (h.object_isAt hp).ns_getD
  unfold Subscription.wants
  rw [hns, Bool.eq_iff_iff, decide_eq_true_eq, Bool.and_eq_true, beq_iff_eq]
  exact and_congr_left' eq_comm

/-- The step of a subscription: what it is told by a call joins its queue, from
which only its own drain takes. -/
theorem isSubscribed_after {e : Entry} (h : e.before.IsSubscribed id r ns q)
    (hp : e.before.Placed) (hc : e.call.ends id = false) :
    ∃ q', e.after.IsSubscribed id r ns q' ∧
      e.takes id ++ q' = q ++ ((e.change? r ns).map Change.event).toList := by
  rcases e.quiet_or_makes with hq | ⟨m, hm⟩
  · obtain ⟨q', hs, ht⟩ := h.tend hc
    refine ⟨q', hq.after ▸ hs, ?_⟩
    rw [hq.change?]
    simpa using ht
  · have hs := h.commit m
    rw [← hm.after] at hs
    refine ⟨_, hs, ?_⟩
    rw [hm.takes, hm.change?, heard, hm.wants hp]
    by_cases hw : m.resource = r ∧ Subscription.covers ns m.key.ns
    · simp [hw]
    · simp [hw]

end Entry

theorem changes_cons (t : Tracker) (r : GroupVersionResource) (ns : String) (c : Call)
    (cs : List Call) : t.changes r ns (c :: cs) =
      ((Entry.mk t c).change? r ns).toList ++ (Entry.mk t c).after.changes r ns cs := by
  unfold changes
  rw [history_cons, List.filterMap_cons]
  cases (Entry.mk t c).change? r ns <;> rfl

theorem changes_append (t : Tracker) (r : GroupVersionResource) (ns : String)
    (cs ds : List Call) :
    t.changes r ns (cs ++ ds) = t.changes r ns cs ++ (t.run cs).changes r ns ds := by
  unfold changes
  rw [history_append, List.filterMap_append]

/-- What a subscription is told in a run are the changes of the run, in their order. -/
theorem delivered_eq {t : Tracker} (h : t.IsSubscribed id r ns q) (hp : t.Placed)
    {cs : List Call} (hc : ∀ c ∈ cs, c.ends id = false) :
    t.delivered id cs = q ++ (t.changes r ns cs).map Change.event := by
  induction cs generalizing t q with
  | nil => simp [delivered, changes, h.queued]
  | cons c cs ih =>
    obtain ⟨q', hs, ht⟩ :=
      Entry.isSubscribed_after (e := ⟨t, c⟩) h hp (hc c List.mem_cons_self)
    have hrest := ih hs (Entry.placed_after hp) fun d hd => hc d (List.mem_cons_of_mem _ hd)
    calc t.delivered id (c :: cs)
        = (Entry.mk t c).takes id ++ (Entry.mk t c).after.delivered id cs := by
          simp [delivered, Entry.after]
      _ = q ++ (((Entry.mk t c).change? r ns).map Change.event).toList ++
            ((Entry.mk t c).after.changes r ns cs).map Change.event := by
          rw [hrest, ← List.append_assoc, ht]
      _ = q ++ (t.changes r ns (c :: cs)).map Change.event := by
          rw [changes_cons, List.map_append, List.append_assoc]
          cases (Entry.mk t c).change? r ns <;> rfl

end

end Tracker
end ClusterKit
