/-
# Trackers with the same store

What a tracker answers to an action and what it then holds depend on its objects
and on how much it has counted, and on nothing that is queued for its
subscriptions. So two trackers that agree in this answer alike and still agree
afterwards, whoever has read from the subscriptions of one of them meanwhile.

Key definitions: `Tracker.SameStore`, `Tracker.SameWrite`, `Tracker.obey`.
Key theorems: `Tracker.SameStore.obey`.
-/
import ClusterKit.Fake.Reactor
import ClusterKit.Proofs.Tracker.Call

namespace ClusterKit
namespace Tracker

/-- The trackers hold the same objects, and have counted the same versions and subscriptions. -/
structure SameStore (s t : Tracker) : Prop where
  objects : s.objects = t.objects
  version : s.version = t.version
  nextSubscription : s.nextSubscription = t.nextSubscription

/-- The writes fail with the same status, or answer with the same object and leave the same
store. -/
inductive SameWrite : Except Status (Erased × Tracker) → Except Status (Erased × Tracker) → Prop
  | error (e : Status) : SameWrite (.error e) (.error e)
  | ok (o : Erased) {s t : Tracker} (h : s.SameStore t) : SameWrite (.ok (o, s)) (.ok (o, t))

/-- The tracker after an action that is left to it. -/
def obey (t : Tracker) (a : Action) : Tracker :=
  match a.deed with
  | .watch _ => (t.reactWatch a).2
  | _ => (t.react a).2

namespace SameStore

variable {s t : Tracker}

theorem refl (t : Tracker) : t.SameStore t :=
  ⟨rfl, rfl, rfl⟩

theorem trans {u : Tracker} (h : s.SameStore t) (h' : t.SameStore u) : s.SameStore u :=
  ⟨h.objects.trans h'.objects, h.version.trans h'.version,
    h.nextSubscription.trans h'.nextSubscription⟩

section

variable (h : s.SameStore t) (r : GroupVersionResource)

include h

theorem find? (k : ObjectKey) : s.find? r k = t.find? r k :=
  find?_congr h.objects r k

theorem store (k : ObjectKey) (o : Erased) (event : Erased → WatchEvent Erased) :
    SameWrite (.ok (s.store r k o event)) (.ok (t.store r k o event)) := by
  obtain ⟨objects, subscriptions, version, next⟩ := s
  obtain ⟨objects', subscriptions', version', next'⟩ := t
  obtain ⟨rfl, rfl, rfl⟩ := h
  exact .ok _ ⟨rfl, rfl, rfl⟩

theorem create (ns : String) (o : Erased) (p : PostParams) :
    SameWrite (s.create r ns o p) (t.create r ns o p) := by
  unfold Tracker.create
  cases place r ns o with
  | error e => exact .error e
  | ok x =>
    obtain ⟨k, o'⟩ := x
    simp only [ok_bind, h.find?]
    cases t.find? r k with
    | some old => exact .error _
    | none =>
      cases p.dryRun with
      | true => exact .ok _ h
      | false => exact h.store r k o' _

theorem update (ns : String) (o : Erased) (p : PostParams) :
    SameWrite (s.update r ns o p) (t.update r ns o p) := by
  unfold Tracker.update
  cases place r ns o with
  | error e => exact .error e
  | ok x =>
    obtain ⟨k, o'⟩ := x
    simp only [ok_bind, h.find?]
    cases t.find? r k with
    | none => exact .error _
    | some stored =>
      dsimp only
      split
      · exact .error _
      · cases p.dryRun with
        | true => exact .ok _ h
        | false => exact h.store r k o' _

theorem remove (k : ObjectKey) (e : WatchEvent Erased) :
    ((s.remove r k).publish r e).SameStore ((t.remove r k).publish r e) := by
  refine ⟨?_, h.version, h.nextSubscription⟩
  show (s.remove r k).objects = (t.remove r k).objects
  unfold Tracker.remove collection
  rw [h.objects]

theorem delete (ns name : String) (p : DeleteParams) :
    SameWrite (s.delete r ns name p) (t.delete r ns name p) := by
  have htried : ∀ stored, SameWrite
      (if p.dryRun then .ok (stored, s)
        else .ok (stored, (s.remove r ⟨ns, name⟩).publish r (.deleted stored)))
      (if p.dryRun then .ok (stored, t)
        else .ok (stored, (t.remove r ⟨ns, name⟩).publish r (.deleted stored))) := by
    intro stored
    cases p.dryRun with
    | true => exact .ok _ h
    | false => exact .ok _ (h.remove r ⟨ns, name⟩ _)
  unfold Tracker.delete
  rw [h.find?]
  cases t.find? r ⟨ns, name⟩ with
  | none => exact .error _
  | some stored =>
    cases p.preconditions with
    | none => exact htried stored
    | some c =>
      dsimp only
      cases checkPreconditions r stored c with
      | error e => exact .error e
      | ok u => exact htried stored

theorem written {x y : Except Status (Erased × Tracker)} (f : Erased → Reply)
    (hwrite : SameWrite x y) : (s.written f x).2.SameStore (t.written f y).2 := by
  cases hwrite with
  | error e => exact h
  | ok o hst => exact hst

/-- An action that is left to two trackers with the same store leaves them with the same one. -/
theorem obey (a : Action) : (s.obey a).SameStore (t.obey a) := by
  obtain ⟨r, ns, d⟩ := a
  cases d with
  | get name =>
    have hget : s.get r ns name = t.get r ns name := by
      unfold Tracker.get
      rw [h.find?]
    simp only [Tracker.obey, react, hget]
    cases t.get r ns name <;> exact h
  | list p =>
    simp only [Tracker.obey, react]
    cases selector r p <;> exact h
  | create o p => exact h.written .object (h.create r ns o p)
  | update o p => exact h.written .object (h.update r ns o p)
  | delete name p => exact h.written (fun _ => .empty) (h.delete r ns name p)
  | watch p =>
    simp only [Tracker.obey, reactWatch]
    cases selector r p with
    | error e => exact h
    | ok sel => exact ⟨h.objects, h.version, congrArg (· + 1) h.nextSubscription⟩

end

end SameStore

end Tracker
end ClusterKit
