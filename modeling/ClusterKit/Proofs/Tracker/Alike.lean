/-
# Trackers alike in a namespace

Two trackers may hold anything elsewhere and still be alike in one namespace of a
collection: they have the same objects there and count the same version. An
action in that namespace cannot tell them apart. It has the same outcome on
both, and what it does to them is the same mutation, of a key in the namespace.

Key definitions: `Tracker.Alike`, `Tracker.ActsAlike`.
Key theorems: `Tracker.Alike.react`, `Tracker.Alike.commit`.
-/
import Mathlib.Tactic.Common
import ClusterKit.Fake.Reactor
import ClusterKit.Proofs.Tracker.Fanout

namespace ClusterKit
namespace Tracker

variable {r : GroupVersionResource} {ns : String} {t₁ t₂ : Tracker} {β : Type}

/-- The trackers count the same version, and hold the same objects in a namespace of
a collection. -/
structure Alike (r : GroupVersionResource) (ns : String) (t₁ t₂ : Tracker) : Prop where
  version : t₁.version = t₂.version
  find? : ∀ name, t₁.find? r ⟨ns, name⟩ = t₂.find? r ⟨ns, name⟩

/-- The mutation is of a key in a namespace of a collection. -/
structure Mutation.IsWithin (m : Mutation) (r : GroupVersionResource) (ns : String) : Prop where
  resource : m.resource = r
  ns : m.key.ns = ns

/-- What the trackers come to with the same outcome: they stay as they are, or the same
mutation in the namespace is made in both. -/
inductive ActsAlike (r : GroupVersionResource) (ns : String) (t₁ t₂ : Tracker) :
    β × Tracker → β × Tracker → Prop
  | stays (x : β) : ActsAlike r ns t₁ t₂ (x, t₁) (x, t₂)
  | makes (x : β) {m : Mutation} (hm : m.IsWithin r ns) :
      ActsAlike r ns t₁ t₂ (x, t₁.commit m) (x, t₂.commit m)

/-- Something else may be made of the outcome. -/
theorem ActsAlike.map {x₁ x₂ : β × Tracker} (h : ActsAlike r ns t₁ t₂ x₁ x₂) (f : β → γ) :
    ActsAlike r ns t₁ t₂ (f x₁.1, x₁.2) (f x₂.1, x₂.2) := by
  cases h with
  | stays x => exact .stays (f x)
  | makes x hm => exact .makes (f x) hm

/-- The two ways to act alike. -/
theorem ActsAlike.cases_eq {x₁ x₂ : β × Tracker} (h : ActsAlike r ns t₁ t₂ x₁ x₂) :
    x₁.1 = x₂.1 ∧ ((x₁.2 = t₁ ∧ x₂.2 = t₂) ∨
      ∃ m : Mutation, m.IsWithin r ns ∧ x₁.2 = t₁.commit m ∧ x₂.2 = t₂.commit m) := by
  cases h with
  | stays x => exact ⟨rfl, .inl ⟨rfl, rfl⟩⟩
  | makes x hm => exact ⟨rfl, .inr ⟨_, hm, rfl, rfl⟩⟩

namespace Alike

theorem refl (t : Tracker) : Alike r ns t t :=
  ⟨rfl, fun _ => rfl⟩

theorem get (h : Alike r ns t₁ t₂) (name : String) : t₁.get r ns name = t₂.get r ns name := by
  unfold Tracker.get
  rw [h.find?]

/-- A namespace is listed as what is in it. -/
theorem list (h : Alike r ns t₁ t₂) (hns : ns.isEmpty = false) : t₁.list r ns = t₂.list r ns := by
  have hitems : (t₁.collection r).filter (fun k _ => Subscription.covers ns k.ns) =
      (t₂.collection r).filter (fun k _ => Subscription.covers ns k.ns) := by
    apply Table.ext_get?
    rintro ⟨ns', name⟩
    rw [Table.get?_filter, Table.get?_filter]
    by_cases hk : ns = ns'
    · subst hk
      exact congrArg _ (h.find? name)
    · have hout : Subscription.covers ns ns' = false := by
        simp [Subscription.covers, hns, hk]
      cases (t₁.collection r).get? ⟨ns', name⟩ <;> cases (t₂.collection r).get? ⟨ns', name⟩ <;>
        simp [Option.filter, hout]
  unfold Tracker.list
  rw [h.version, hitems]

/-- Trackers that are alike still are after the same mutation. -/
theorem commit (h : Alike r ns t₁ t₂) (m : Mutation) : Alike r ns (t₁.commit m) (t₂.commit m) := by
  refine ⟨?_, ?_⟩
  · rw [version_commit, version_commit, h.version]
  · intro name
    rw [find?_commit, find?_commit, h.find?]

end Alike

/-- What a call on a namespace places is in that namespace. -/
theorem ns_of_place (hns : ns.isEmpty = false) {o o' : Erased} {k : ObjectKey}
    (h : place r ns o = .ok (k, o')) : k.ns = ns := by
  unfold place at h
  dsimp only at h
  split at h
  · cases h
  · split at h
    · cases h
      rfl
    · split at h
      · rename_i hcovers
        cases h
        simp only [Subscription.covers, hns, Bool.false_or, beq_iff_eq] at hcovers
        exact hcovers.symm
      · cases h

section

variable (h : Alike r ns t₁ t₂) (hns : ns.isEmpty = false) (f : Erased → Reply)

include h hns

theorem Alike.create (o : Erased) (p : PostParams) :
    ActsAlike r ns t₁ t₂ (t₁.written f (t₁.create r ns o p)) (t₂.written f (t₂.create r ns o p)) := by
  unfold Tracker.create
  cases hp : place r ns o with
  | error s => exact .stays _
  | ok placed =>
    obtain ⟨⟨ns', name⟩, o'⟩ := placed
    obtain rfl : ns' = ns := ns_of_place hns hp
    simp only [ok_bind, h.find?]
    cases t₂.find? r ⟨ns', name⟩ with
    | some old => exact .stays _
    | none =>
      cases p.dryRun with
      | true => exact .stays _
      | false =>
        simp only [Option.isSome_none, Bool.false_eq_true, if_false, store_added, h.version]
        exact .makes _ ⟨rfl, rfl⟩

theorem Alike.update (o : Erased) (p : PostParams) :
    ActsAlike r ns t₁ t₂ (t₁.written f (t₁.update r ns o p)) (t₂.written f (t₂.update r ns o p)) := by
  unfold Tracker.update
  cases hp : place r ns o with
  | error s => exact .stays _
  | ok placed =>
    obtain ⟨⟨ns', name⟩, o'⟩ := placed
    obtain rfl : ns' = ns := ns_of_place hns hp
    simp only [ok_bind, h.find?]
    cases t₂.find? r ⟨ns', name⟩ with
    | none => exact .stays _
    | some old =>
      dsimp only
      cases (claimedVersion o').isSome && claimedVersion o' != old.metadata.resourceVersion with
      | true => exact .stays _
      | false =>
        cases p.dryRun with
        | true => exact .stays _
        | false =>
          simp only [Bool.false_eq_true, if_false, store_modified, h.version]
          exact .makes _ ⟨rfl, rfl⟩

omit hns in
theorem Alike.delete (name : String) (p : DeleteParams) : ActsAlike r ns t₁ t₂
    (t₁.written f (t₁.delete r ns name p)) (t₂.written f (t₂.delete r ns name p)) := by
  have hgo : ∀ old, ActsAlike r ns t₁ t₂
      (t₁.written f (if p.dryRun then .ok (old, t₁)
        else .ok (old, t₁.commit ⟨r, ⟨ns, name⟩, .deleted old⟩)))
      (t₂.written f (if p.dryRun then .ok (old, t₂)
        else .ok (old, t₂.commit ⟨r, ⟨ns, name⟩, .deleted old⟩))) := by
    intro old
    cases p.dryRun with
    | true => exact .stays _
    | false => exact .makes _ ⟨rfl, rfl⟩
  unfold Tracker.delete
  simp only [h.find?]
  cases t₂.find? r ⟨ns, name⟩ with
  | none => exact .stays _
  | some old =>
    dsimp only
    cases p.preconditions with
    | none => exact hgo old
    | some c =>
      dsimp only
      cases checkPreconditions r old c with
      | error s => exact .stays _
      | ok _ => exact hgo old

/-- An action in the namespace, other than a watch, comes to the same on both trackers. -/
theorem Alike.react {a : Action} (hr : a.resource = r) (ha : a.ns = ns) :
    ActsAlike r ns t₁ t₂ (t₁.react a) (t₂.react a) := by
  obtain ⟨r, ns, d⟩ := a
  subst hr ha
  cases d with
  | get name =>
    dsimp only [Tracker.react]
    rw [h.get]
    cases t₂.get r ns name <;> exact .stays _
  | list p =>
    dsimp only [Tracker.react]
    rw [h.list hns]
    cases selector r p <;> exact .stays _
  | create o p => exact h.create hns _ o p
  | update o p => exact h.update hns _ o p
  | delete name p => exact h.delete _ name p
  | watch p => exact .stays _

end

end Tracker
end ClusterKit
