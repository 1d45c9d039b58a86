/-
# Views of a tracker

What can be seen of a tracker is the object at each key, its version, and what
is queued for each subscription. Every operation of the tracker is described
here by what it does to these views, so that later proofs need not know how
objects and subscriptions are kept.

Key definitions: `Erased.IsAt`.
Key theorems: `Tracker.find?_put`, `Tracker.find?_remove`, `Tracker.receiver_publish`.
-/
import ClusterKit.Tracker.Write
import ClusterKit.Watch.Change

namespace ClusterKit
namespace Tracker

variable (t : Tracker) (r : GroupVersionResource) (k : ObjectKey) (o : Erased)

/-! ### Objects -/

theorem collection_put (r' : GroupVersionResource) :
    (t.put r k o).collection r' =
      if r' = r then (t.collection r).insert k o else t.collection r' := by
  unfold collection put
  rw [Table.get?_insert]
  split <;> rfl

theorem collection_remove (r' : GroupVersionResource) :
    (t.remove r k).collection r' =
      if r' = r then (t.collection r).erase k else t.collection r' := by
  unfold collection remove
  rw [Table.get?_insert]
  split <;> rfl

theorem find?_put (r' : GroupVersionResource) (k' : ObjectKey) :
    (t.put r k o).find? r' k' = if r' = r ∧ k' = k then some o else t.find? r' k' := by
  unfold find?
  rw [collection_put]
  by_cases hr : r' = r
  · subst hr
    rw [if_pos rfl, Table.get?_insert]
    simp
  · simp [hr]

theorem find?_remove (r' : GroupVersionResource) (k' : ObjectKey) :
    (t.remove r k).find? r' k' = if r' = r ∧ k' = k then none else t.find? r' k' := by
  unfold find?
  rw [collection_remove]
  by_cases hr : r' = r
  · subst hr
    rw [if_pos rfl, Table.get?_erase]
    simp
  · simp [hr]

@[simp] theorem find?_empty : empty.find? r k = none := rfl

/-- The views of objects depend on the objects only. -/
theorem find?_congr {s t : Tracker} (h : s.objects = t.objects) (r : GroupVersionResource)
    (k : ObjectKey) : s.find? r k = t.find? r k := by
  unfold find? collection
  rw [h]

@[simp] theorem find?_publish (e : WatchEvent Erased) (r' : GroupVersionResource)
    (k' : ObjectKey) : (t.publish r e).find? r' k' = t.find? r' k' := rfl

@[simp] theorem version_publish (e : WatchEvent Erased) :
    (t.publish r e).version = t.version := rfl

/-- A list has exactly the objects at the keys that it covers. -/
theorem mem_list_items {ns : String} {o : Erased} :
    o ∈ (t.list r ns).items ↔ ∃ k, t.find? r k = some o ∧ Subscription.covers ns k.ns := by
  unfold list find? Table.values
  simp only [List.mem_map, Prod.exists]
  constructor
  · rintro ⟨k, v, hm, rfl⟩
    have hf := Table.mem_toList_iff.mp hm
    rw [Table.get?_filter, Option.filter_eq_some_iff] at hf
    exact ⟨k, hf.1, hf.2⟩
  · rintro ⟨k, hf, hc⟩
    refine ⟨k, o, Table.mem_toList_iff.mpr ?_, rfl⟩
    rw [Table.get?_filter, hf]
    simp [Option.filter, hc]

end Tracker

/-! ### Places -/

/-- The object says of itself that it belongs at the key `k`. -/
structure Erased.IsAt (o : Erased) (k : ObjectKey) : Prop where
  name : o.metadata.name = some k.name
  named : k.name.isEmpty = false
  ns : o.metadata.ns = if k.ns.isEmpty then none else some k.ns

namespace Erased.IsAt

variable {o : Erased} {k : ObjectKey}

theorem ns_getD (h : o.IsAt k) : o.metadata.ns.getD "" = k.ns := by
  rw [h.ns]
  split
  · rename_i hk
    exact (String.isEmpty_iff.mp hk).symm
  · rfl

theorem key_eq (h : o.IsAt k) :
    (⟨o.metadata.ns.getD "", o.metadata.name.getD ""⟩ : ObjectKey) = k := by
  rw [h.ns_getD, h.name]
  rfl

theorem atVersion (h : o.IsAt k) (v : Option String) : (Tracker.atVersion v o).IsAt k :=
  ⟨h.name, h.named, h.ns⟩

end Erased.IsAt

namespace Tracker

theorem place_isAt {r : GroupVersionResource} {ns : String} {o o' : Erased} {k : ObjectKey}
    (h : place r ns o = .ok (k, o')) : o'.IsAt k := by
  unfold place at h
  simp only at h
  split at h
  · cases h
  · rename_i hn
    have hname : o.metadata.name = some (o.metadata.name.getD "") := by
      cases hm : o.metadata.name with
      | none => simp [hm] at hn
      | some n => rfl
    split at h
    · cases h
      exact ⟨hname, by simpa using hn, rfl⟩
    · rename_i hown
      split at h
      · cases h
        refine ⟨hname, by simpa using hn, ?_⟩
        cases hm : o.metadata.ns with
        | none => simp [hm] at hown
        | some own =>
          rw [hm] at hown
          exact (if_neg hown).symm
      · cases h

/-- Placing an object changes its namespace at most. -/
theorem place_object {r : GroupVersionResource} {ns : String} {o o' : Erased} {k : ObjectKey}
    (h : place r ns o = .ok (k, o')) :
    ∃ ns', o' = { o with metadata := { o.metadata with ns := ns' } } := by
  unfold place at h
  simp only at h
  split at h
  · cases h
  · split at h
    · cases h
      exact ⟨_, rfl⟩
    · split at h
      · cases h
        exact ⟨_, rfl⟩
      · cases h

/-! ### Subscriptions -/

section

variable (t : Tracker) (r : GroupVersionResource) (e : WatchEvent Erased) (id : Nat)

theorem subscription_prune : (t.prune r).subscriptions.get? id =
    (t.subscriptions.get? id).filter fun s => s.resource != r || t.isOpen id := by
  unfold prune
  rw [Table.get?_filter]

/-- What has an open receiver stays. -/
theorem subscription_prune_of_isOpen (h : t.isOpen id = true) :
    (t.prune r).subscriptions.get? id = t.subscriptions.get? id := by
  rw [subscription_prune]
  cases t.subscriptions.get? id with
  | none => rfl
  | some s => simp [h]

/-- What is forgotten on the way would have got nothing: it is closed. -/
theorem receiver_publish : (t.publish r e).receivers.get? id =
    (t.receivers.get? id).map fun c =>
      if (t.subscriptions.get? id).any (·.wants r e) then c.send e else c := by
  unfold publish send
  rw [Table.get?_map]
  show (t.receivers.get? id).map _ = _
  cases hc : t.receivers.get? id with
  | none => rfl
  | some c =>
    rw [Option.map_some, Option.map_some]
    cases ho : c.isOpen with
    | true => rw [t.subscription_prune_of_isOpen r id (by simp [isOpen, hc, ho])]
    | false => simp [Receiver.send, ho]

end

end Tracker
end ClusterKit
