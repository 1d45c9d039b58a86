/-
# What a write tells

Whoever watches a typed collection is told of a write what its caller knows of
it: of a create or an update the object that it is answered with, and of a delete
the object that a get would have been answered with just before. Writes that
fail, that are only tried, or that are on objects of another namespace are not
told of.

Key definitions: `FakeApi.Request.isHeard`, `FakeApi.Request.tells`.
Key theorems: `FakeApi.Request.tells_eq`, `FakeApi.Request.exists_tells`.
-/
import ClusterKit.Proofs.Fake.RoundTrip
import ClusterKit.Proofs.Watch.Lasting

namespace ClusterKit

open Tracker

variable {α : Type} {K : Kind α}

/-! ### Changes by the calls of an api -/

namespace Tracker.Entry

variable (t : Tracker) (r : GroupVersionResource) (ns : String) (o : Erased)

theorem change?_of_not_effective {e : Entry} (h : e.isEffective = false) :
    e.change? r ns = none := by
  simp [change?, mutation?, h]

theorem change?_of_touches {e : Entry} {k : ObjectKey} (h : e.Touches r k) {c : Change Erased}
    (hc : Change.between? (e.before.find? r k) (e.after.find? r k) = some c) :
    e.change? r ns = if Subscription.covers ns k.ns then some c else none := by
  obtain ⟨d, hm⟩ := h.makes
  have hd : d = c := by
    rw [hm.find?_after] at hc
    exact Option.some.inj (hm.fits.change.symm.trans hc)
  rw [hm.change?, hd]
  simp

/-- A write in the namespace `own` that is answered with `x` makes a change of the object in the
answer, unless it is only tried. -/
theorem change?_of_write {e : Entry} (change : Erased → Change Erased) {own : String}
    {dryRun : Bool} {x : Except Status (Erased × Tracker)}
    (hperform : e.before.perform e.call = e.before.answered x)
    (hwrite : e.call.isWrite = !dryRun)
    (hok : ∀ o t', x = .ok (o, t') → dryRun = false → ∃ k, e.call.target? = some (r, k) ∧
      k.ns = own ∧ Change.between? (e.before.find? r k) (t'.find? r k) = some (change o)) :
    e.change? r ns =
      if !dryRun && Subscription.covers ns own then x.toOption.map (change ·.1) else none := by
  unfold answered at hperform
  cases x with
  | error s =>
    rw [change?_of_not_effective]
    · simp [Except.toOption]
    · simp [isEffective, succeeded, answer, hperform, Except.isOk, Except.toBool]
  | ok y =>
    obtain ⟨o, t'⟩ := y
    cases hd : dryRun with
    | true =>
      rw [change?_of_not_effective]
      · rfl
      · simp [isEffective, hwrite, hd]
    | false =>
      obtain ⟨k, htarget, rfl, hbetween⟩ := hok o t' rfl hd
      have htouches : e.Touches r k := by
        refine ⟨?_, htarget⟩
        simp [isEffective, hwrite, hd, succeeded, answer, hperform, Except.isOk, Except.toBool]
      have hafter : e.after = t' := by simp [after, hperform]
      rw [change?_of_touches r ns htouches (c := change o) (hafter ▸ hbetween)]
      rfl

/-- A create adds what it answers with. -/
theorem change?_create (p : PostParams) :
    (Entry.mk t (.create r (o.metadata.ns.getD "") o p)).change? r ns =
      if !p.dryRun && Subscription.covers ns (o.metadata.ns.getD "") then
        (t.create r (o.metadata.ns.getD "") o p).toOption.map (.added ·.1)
      else none := by
  refine change?_of_write r ns .added rfl rfl ?_
  intro a t' h hd
  rcases create_cases t r (o.metadata.ns.getD "") o p with
    ⟨s, he⟩ | ⟨k, o', hp, hf, ⟨htried, -⟩ | ⟨-, he⟩⟩
  · cases he.symm.trans h
  · cases htried.symm.trans hd
  · rw [he, store_added] at h
    cases h
    refine ⟨k, by simp [Call.target?, hp, Except.toOption], by rw [(place_own hp).1], ?_⟩
    simp [find?_commit, hf, Change.between?, Change.result?]

/-- An update modifies what is stored to what it answers with. -/
theorem change?_update (p : PostParams) :
    (Entry.mk t (.update r (o.metadata.ns.getD "") o p)).change? r ns =
      if !p.dryRun && Subscription.covers ns (o.metadata.ns.getD "") then
        (t.update r (o.metadata.ns.getD "") o p).toOption.map (.modified ·.1)
      else none := by
  refine change?_of_write r ns .modified rfl rfl ?_
  intro a t' h hd
  rcases update_cases t r (o.metadata.ns.getD "") o p with
    ⟨s, he⟩ | ⟨k, o', old, hp, hf, -, ⟨htried, -⟩ | ⟨-, he⟩⟩
  · cases he.symm.trans h
  · cases htried.symm.trans hd
  · rw [he, store_modified] at h
    cases h
    refine ⟨k, by simp [Call.target?, hp, Except.toOption], by rw [(place_own hp).1], ?_⟩
    simp [find?_commit, hf, Change.between?, Change.result?]

/-- A delete takes out what it answers with. -/
theorem change?_delete (own name : String) (p : DeleteParams) :
    (Entry.mk t (.delete r own name p)).change? r ns =
      if !p.dryRun && Subscription.covers ns own then
        (t.delete r own name p).toOption.map (.deleted ·.1)
      else none := by
  refine change?_of_write r ns .deleted rfl rfl ?_
  intro a t' h hd
  rcases delete_cases t r own name p with ⟨s, he⟩ | ⟨old, hf, -, ⟨htried, -⟩ | ⟨-, he⟩⟩
  · cases he.symm.trans h
  · cases htried.symm.trans hd
  · rw [he] at h
    cases h
    refine ⟨⟨own, name⟩, rfl, rfl, ?_⟩
    rw [find?_publish, find?_remove, if_pos ⟨rfl, rfl⟩]
    simp [hf, Change.between?]

end Tracker.Entry

/-- A delete answers with what has been stored. -/
theorem Tracker.find?_of_delete {t : Tracker} {r : GroupVersionResource} {own name : String}
    {p : DeleteParams} {x : Erased × Tracker} (h : t.delete r own name p = .ok x) :
    t.find? r ⟨own, name⟩ = some x.1 := by
  rcases delete_cases t r own name p with ⟨s, he⟩ | ⟨old, hf, -, ⟨-, he⟩ | ⟨-, he⟩⟩
  · cases he.symm.trans h
  · cases he.symm.trans h
    exact hf
  · cases he.symm.trans h
    exact hf

/-! ### Requests that are heard of -/

namespace FakeApi

variable {api : FakeApi} {ns : String} {c : Clientset}

namespace Request

/-- Whether the request seeds the tracker, as it is done where a cluster is new. -/
def isSeed : Request α → Bool
  | .seed _ => true
  | _ => false

section

variable (K : Kind α) (api : FakeApi) (ns : String) (c : Clientset)

/-- Whether the request succeeds in writing to an object in the namespace, or in any for the
empty name, and does not only try. -/
def isHeard : Request α → Bool
  | .create obj p => !p.dryRun && Subscription.covers ns ((K.metadata obj).ns.getD "") &&
      (((api.calls K).create obj p).run c).1.isOk
  | .update obj p => !p.dryRun && Subscription.covers ns ((K.metadata obj).ns.getD "") &&
      (((api.calls K).update obj p).run c).1.isOk
  | .delete name own p => !p.dryRun && Subscription.covers ns own &&
      (((api.calls K).delete name own p).run c).1.isOk
  | _ => false

/-- What a write has changed for its caller: a create or an update the object that it
answers with, and a delete the one that a get is answered with just before. -/
def changed : Request α → Option (Change α)
  | .create obj p => (((api.calls K).create obj p).run c).1.toOption.map .added
  | .update obj p => (((api.calls K).update obj p).run c).1.toOption.map .modified
  | .delete name own _ => (((api.calls K).get name own .none).run c).1.toOption.map .deleted
  | _ => none

/-- What a watch of the namespace is to tell of a request to a cluster. -/
def tells (q : Request α) : Option (Change α) :=
  if q.isHeard K api ns c then q.changed K api c else none

end

end Request

theorem toOption_typed (K : Kind α) (verb : String) (o : Erased) :
    (typed K verb (.object o)).toOption = K.restored? o := by
  unfold typed Kind.restored?
  dsimp only
  cases K.restore o <;> rfl

/-- A create or an update answers with what is restored of what the tracker answers with. -/
theorem toOption_written (t : Tracker) (verb : String) (e : ClientError)
    (x : Except Status (Erased × Tracker)) :
    ((((t.written .object x).1.getD (.error e)).bind (typed K verb)).toOption) =
      x.toOption.bind fun y => K.restored? y.1 := by
  cases x with
  | error s => rfl
  | ok y => exact toOption_typed K verb y.1

theorem toOption_create (hc : c.IsDefault) {obj : α} {p : PostParams} {o : Erased}
    (he : K.erase api.resource obj = .ok o) :
    (((api.calls K).create obj p).run c).1.toOption =
      (c.tracker.create api.resource.gvr ((K.metadata obj).ns.getD "") o p).toOption.bind
        fun y => K.restored? y.1 := by
  show ((api.write K "create" obj (.create · p)).run c).1.toOption = _
  rw [run_write, he]
  dsimp only
  rw [Clientset.invoke_eq hc]
  exact toOption_written _ _ _ _

theorem toOption_update (hc : c.IsDefault) {obj : α} {p : PostParams} {o : Erased}
    (he : K.erase api.resource obj = .ok o) :
    (((api.calls K).update obj p).run c).1.toOption =
      (c.tracker.update api.resource.gvr ((K.metadata obj).ns.getD "") o p).toOption.bind
        fun y => K.restored? y.1 := by
  show ((api.write K "update" obj (.update · p)).run c).1.toOption = _
  rw [run_write, he]
  dsimp only
  rw [Clientset.invoke_eq hc]
  exact toOption_written _ _ _ _

/-- A delete succeeds just if that of the tracker does. -/
theorem isOk_delete (hc : c.IsDefault) (name own : String) (p : DeleteParams) :
    (((api.calls K).delete name own p).run c).1.isOk =
      (c.tracker.delete api.resource.gvr own name p).isOk := by
  have hrun : ((api.calls K).delete name own p).run c =
      ((c.invoke (api.action own (.delete name p))).1.bind deleted,
        (c.invoke (api.action own (.delete name p))).2) := run_invoke _ _ _
  rw [hrun, Clientset.invoke_eq hc]
  simp only [react, action]
  cases c.tracker.delete api.resource.gvr own name p <;> rfl

/-- A get answers with what is restored of the stored object. -/
theorem toOption_get (hc : c.IsDefault) {name own : String} {gp : GetParams} {o : Erased}
    (ho : c.tracker.find? api.resource.gvr ⟨own, name⟩ = some o) :
    (((api.calls K).get name own gp).run c).1.toOption = K.restored? o := by
  have hrun : ((api.calls K).get name own gp).run c =
      ((c.invoke (api.action own (.get name))).1.bind (typed K "get"),
        (c.invoke (api.action own (.get name))).2) := run_invoke _ _ _
  have hget : c.tracker.get api.resource.gvr own name = .ok o := by
    rw [Tracker.get, ho]
  rw [hrun, Clientset.invoke_eq hc]
  simp only [react, action, hget]
  exact toOption_typed K "get" o

/-- Of a call that has not succeeded nothing is left. -/
theorem ite_isOk {ε β γ : Type} (b : Bool) (x : Except ε β) (f : β → γ) :
    (if b && x.isOk then x.toOption.map f else none) =
      if b then x.toOption.map f else none := by
  cases x <;> cases b <;> rfl

/-- What a watch is to tell of a request is what the call that it comes down to tells those who
follow a list. -/
theorem Request.tells_eq (hK : K.Faithful) (hc : c.IsDefault) {q : Request α}
    (hq : q.isSeed = false) : q.tells K api ns c = (q.call? K api).bind fun d =>
      (Entry.mk c.tracker d).told? K.restored? api.resource.gvr ns := by
  cases q with
  | create obj p =>
    refine (ite_isOk _ _ _).trans ?_
    rw [Request.call?]
    cases he : K.erase api.resource obj with
    | error e =>
      rw [calls, run_write, he]
      simp [Except.toOption]
    | ok o =>
      rw [toOption_create hc he, ← (hK.restore_of_erase he).1]
      simp only [Except.toOption, Option.map_some, Option.bind_some, Entry.told?,
        Entry.change?_create]
      split
      · cases c.tracker.create api.resource.gvr (o.metadata.ns.getD "") o p <;> rfl
      · rfl
  | update obj p =>
    refine (ite_isOk _ _ _).trans ?_
    rw [Request.call?]
    cases he : K.erase api.resource obj with
    | error e =>
      rw [calls, run_write, he]
      simp [Except.toOption]
    | ok o =>
      rw [toOption_update hc he, ← (hK.restore_of_erase he).1]
      simp only [Except.toOption, Option.map_some, Option.bind_some, Entry.told?,
        Entry.change?_update]
      split
      · cases c.tracker.update api.resource.gvr (o.metadata.ns.getD "") o p <;> rfl
      · rfl
  | delete name own p =>
    simp only [tells, isHeard, changed, Request.call?, Option.bind_some, Entry.told?,
      Entry.change?_delete, isOk_delete hc]
    cases hd : c.tracker.delete api.resource.gvr own name p with
    | error s => simp [Except.isOk, Except.toBool, Except.toOption]
    | ok x =>
      rw [toOption_get hc (find?_of_delete hd)]
      simp only [Except.isOk, Except.toBool, Bool.and_true, Except.toOption, Option.map_some]
      split <;> rfl
  | seed obj => cases hq
  | get name own p => rfl
  | list own p => rfl
  | watch own p =>
    rw [Request.call?]
    cases Tracker.selector api.resource.gvr p <;> rfl

/-- Each request that is heard of tells something. -/
theorem Request.exists_tells (hK : K.Faithful) (hc : c.Tame K api) {q : Request α}
    (hq : q.isHeard K api ns c = true) : ∃ d, q.tells K api ns c = some d := by
  have hanswered : ∀ {x : Except ClientError α} {b : Bool} {change : α → Change α},
      (b && x.isOk) = true → ∃ d, x.toOption.map change = some d := by
    intro x b change h
    cases x with
    | ok a => exact ⟨change a, rfl⟩
    | error e => simp [Except.isOk, Except.toBool] at h
  unfold tells
  rw [if_pos hq]
  cases q with
  | create obj p => exact hanswered hq
  | update obj p => exact hanswered hq
  | delete name own p =>
    simp only [isHeard, isOk_delete hc.isDefault, Bool.and_eq_true] at hq
    cases hd : c.tracker.delete api.resource.gvr own name p with
    | error s => simp [hd, Except.isOk, Except.toBool] at hq
    | ok x =>
      have hfind := find?_of_delete hd
      obtain ⟨a, ha, -⟩ := hc.tracker.restore hK hfind
      refine ⟨.deleted a, ?_⟩
      rw [changed, run_get_of_find? hc.isDefault hfind ha]
      rfl
  | _ => cases hq

end FakeApi
end ClusterKit
