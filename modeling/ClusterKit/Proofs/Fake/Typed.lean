/-
# Typed collections

What goes into a collection through an api has been erased from the api's type
of objects, and is stored with other metadata at most. So where all writes to a
collection go through the api of a faithful kind, each stored object stands for
one of the type, whose metadata are those it is stored with.

Key definitions: `Tracker.Tame`, `Clientset.Tame`, `FakeApi.Disturbs`, `FakeApi.Reached`.
Key theorems: `Tracker.Entry.tame_after`, `Tracker.Tame.restore`, `FakeApi.Reached.tame`.
-/
import ClusterKit.Proofs.Fake.Cluster
import ClusterKit.Proofs.Kind.Faithful
import ClusterKit.Proofs.Tracker.Follow

namespace ClusterKit

variable {α : Type}

namespace Tracker

/-- The subscription that a call is on the receiver of. -/
def Call.subscription? : Call → Option Nat
  | .drain id => some id
  | .close id => some id
  | .unsubscribe id => some id
  | _ => none

section

variable (K : Kind α) (r : ApiResource)

/-- What the call is to store in the collection of `r` is an erased object of the kind. -/
def Call.IsTyped (c : Call) : Prop :=
  ∀ k o, c.target? = some (r.gvr, k) → c.object? = some o → ∃ a, K.erase r a = .ok o

/-- Objects are stored where they belong, and those in the collection of `r` are erased
ones of the kind, but for their metadata. -/
structure Tame (t : Tracker) : Prop where
  placed : t.Placed
  typed : ∀ k o, t.find? r.gvr k = some o → ∃ a e, K.erase r a = .ok e ∧ o.SameBody e

end

variable {K : Kind α} {r : ApiResource}

theorem tame_empty : empty.Tame K r := by
  refine ⟨placed_empty, ?_⟩
  intro k o h
  rw [find?_empty] at h
  cases h

theorem Tame.of_objects {s t : Tracker} (h : s.Tame K r) (ho : t.objects = s.objects) :
    t.Tame K r := by
  refine ⟨?_, ?_⟩
  · intro r k o hk
    rw [find?_congr ho] at hk
    exact h.placed r k o hk
  · intro k o hk
    rw [find?_congr ho] at hk
    exact h.typed k o hk

/-- The step of a typed collection: what is stored is what came with the call. -/
theorem Entry.tame_after {e : Entry} (h : e.before.Tame K r) (hc : e.call.IsTyped K r) :
    e.after.Tame K r := by
  refine ⟨placed_after h.placed, ?_⟩
  intro k o ho
  rcases e.quiet_or_makes with hq | ⟨m, hm⟩
  · rw [hq.after, find?_tend] at ho
    exact h.typed k o ho
  · rw [hm.after, find?_commit] at ho
    split at ho
    · rename_i hk
      obtain ⟨hr, rfl⟩ := hk
      obtain ⟨o', hcall, hbody⟩ := hm.body o ho
      have htarget := hm.touches.2
      rw [← hr] at htarget
      obtain ⟨a, ha⟩ := hc _ _ htarget hcall
      exact ⟨a, o', ha, hbody⟩
    · exact h.typed k o ho

/-- A stored object of a faithful kind can be restored, with its own metadata. -/
theorem Tame.restore {t : Tracker} (h : t.Tame K r) (hK : K.Faithful) {k : ObjectKey}
    {o : Erased} (ho : t.find? r.gvr k = some o) :
    ∃ a, K.restore o = .ok a ∧ K.metadata a = o.metadata := by
  obtain ⟨a, e, he, htypes, hdata⟩ := h.typed k o ho
  have hsame : o = { e with metadata := o.metadata } := by
    obtain ⟨types, metadata, data⟩ := o
    subst htypes
    subst hdata
    rfl
  refine ⟨K.withMetadata o.metadata a, ?_, hK.metadata_withMetadata _ _⟩
  rw [hsame]
  exact (hK.restore_of_erase he).2 _

end Tracker

/-! ### Requests of an api -/

namespace FakeApi

variable {K : Kind α} {api : FakeApi}

/-- What a request hands to the tracker is an erased object of the kind. -/
theorem Request.exists_erase_of_call? {q : Request α} {c : Tracker.Call}
    (h : q.call? K api = some c) {o : Erased} (ho : c.object? = some o) :
    ∃ a, K.erase api.resource a = .ok o := by
  have herased : ∀ (a : α) (f : Erased → Tracker.Call), (∀ o, (f o).object? = some o) →
      (K.erase api.resource a).toOption.map f = some c → ∃ a, K.erase api.resource a = .ok o := by
    intro a f hf hc
    cases he : K.erase api.resource a with
    | error e => simp [he, Except.toOption] at hc
    | ok e =>
      rw [he] at hc
      obtain rfl : f e = c := Option.some.inj hc
      rw [hf, Option.some.injEq] at ho
      exact ⟨a, ho ▸ he⟩
  cases q with
  | create a p => exact herased a _ (fun _ => rfl) h
  | update a p => exact herased a _ (fun _ => rfl) h
  | seed a => exact herased a _ (fun _ => rfl) h
  | get name ns p =>
    cases h
    cases ho
  | delete name ns p =>
    cases h
    cases ho
  | list ns p =>
    cases h
    cases ho
  | watch ns p =>
    obtain ⟨-, -, rfl⟩ := Option.map_eq_some_iff.mp h
    cases ho

theorem Request.isTyped_of_call? {q : Request α} {c : Tracker.Call} (h : q.call? K api = some c) :
    c.IsTyped K api.resource :=
  fun _ _ _ ho => Request.exists_erase_of_call? h ho

/-- No request is on the receiver of a subscription. -/
theorem Request.subscription?_of_call? {q : Request α} {c : Tracker.Call}
    (h : q.call? K api = some c) : c.subscription? = none := by
  have hmapped : ∀ {β : Type} (x : Option β) (f : β → Tracker.Call),
      (∀ b, (f b).subscription? = none) → x.map f = some c → c.subscription? = none := by
    intro β x f hf hx
    obtain ⟨b, -, rfl⟩ := Option.map_eq_some_iff.mp hx
    exact hf b
  cases q with
  | get name ns p =>
    cases h
    rfl
  | create a p => exact hmapped _ _ (fun _ => rfl) h
  | update a p => exact hmapped _ _ (fun _ => rfl) h
  | delete name ns p =>
    cases h
    rfl
  | list ns p =>
    cases h
    rfl
  | watch ns p => exact hmapped _ _ (fun _ => rfl) h
  | seed a => exact hmapped _ _ (fun _ => rfl) h

end FakeApi

/-! ### Others on a cluster -/

/-- The cluster answers from its tracker, whose collection of the api is typed. -/
structure Clientset.Tame (K : Kind α) (api : FakeApi) (c : Clientset) : Prop where
  isDefault : c.IsDefault
  tracker : c.tracker.Tame K api.resource

theorem Clientset.Tame.of_objects {K : Kind α} {api : FakeApi} {c : Clientset} (h : c.Tame K api)
    {t : Tracker} (ho : t.objects = c.tracker.objects) :
    Clientset.Tame K api { c with tracker := t } :=
  ⟨⟨h.isDefault.objects, h.isDefault.watches⟩, h.tracker.of_objects ho⟩

namespace FakeApi

section

variable (K : Kind α) (api : FakeApi)

/-- What others may do at once to a cluster, beside a watch with the feed `own`: a
request through an api of the kind, or a call on the tracker that neither writes to
the collection of the api nor is on the receiver of the watch. -/
inductive Disturbs (own : Option Feed) (c : Clientset) : Clientset → Prop
  | request (q : Request α) : Disturbs own c (q.run K api c)
  | call (d : Tracker.Call) (hd : ∀ k, d.target? ≠ some (api.resource.gvr, k))
      (hown : ∀ f, own = some f → d.subscription? ≠ some f.subscription) :
      Disturbs own c { c with tracker := (c.tracker.perform d).2 }

/-- What a new cluster may come to, with an api of the kind and others. -/
inductive Reached : Clientset → Prop
  | start (s : Scheme) : Reached (.ofScheme s)
  | step {c c' : Clientset} (h : Reached c) (hd : Disturbs K api none c c') : Reached c'

end

variable {K : Kind α} {api : FakeApi} {own : Option Feed} {c c' : Clientset}

/-- A disturbance is one typed call on the tracker; a request that does not get there
may as well be a look at it. -/
theorem Disturbs.exists_call (h : Disturbs K api own c c') (hc : c.IsDefault) :
    c'.IsDefault ∧ ∃ d : Tracker.Call, c'.tracker = (c.tracker.perform d).2 ∧
      d.IsTyped K api.resource ∧ ∀ f, own = some f → d.subscription? ≠ some f.subscription := by
  cases h with
  | request q =>
    obtain ⟨hdefault, ht⟩ := Request.run_eq K api hc q
    refine ⟨hdefault, ?_⟩
    cases hq : q.call? K api with
    | none =>
      rw [hq] at ht
      refine ⟨.list api.resource.gvr "", ht, ?_, ?_⟩
      · intro k o _ ho
        cases ho
      · intro f _ hf
        cases hf
    | some d =>
      rw [hq] at ht
      refine ⟨d, ht, Request.isTyped_of_call? hq, ?_⟩
      intro f _
      rw [Request.subscription?_of_call? hq]
      exact nofun
  | call d hd hown =>
    exact ⟨⟨hc.objects, hc.watches⟩, d, rfl, fun k _ hk _ => absurd hk (hd k), hown⟩

theorem Disturbs.tame (h : Disturbs K api own c c') (hc : c.Tame K api) : c'.Tame K api := by
  obtain ⟨hdefault, d, ht, htyped, -⟩ := h.exists_call hc.isDefault
  refine ⟨hdefault, ?_⟩
  rw [ht]
  exact Tracker.Entry.tame_after (e := ⟨c.tracker, d⟩) hc.tracker htyped

theorem Reached.tame (h : Reached K api c) : c.Tame K api := by
  induction h with
  | start s => exact ⟨Clientset.isDefault_ofScheme s, Tracker.tame_empty⟩
  | step _ hd ih => exact hd.tame ih

end FakeApi
end ClusterKit
