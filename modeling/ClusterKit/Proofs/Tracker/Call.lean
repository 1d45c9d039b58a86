/-
# Calls on a tracker

The calls of all clients reach a tracker one at a time, so that a run of it is
a list of calls, whoever makes them. A call either leaves the objects alone
and at most tends to subscriptions, or it makes exactly one mutation: it adds,
modifies or deletes the object at one key, gives what it stores the next
version, and passes the change on (`Entry.quiet_or_makes`). What a call mutates is
read off the objects before and after it (`Entry.mutation?`).

Key definitions: `Tracker.Call`, `Tracker.perform`, `Tracker.Entry.mutation?`, `Tracker.commit`.
Key theorems: `Tracker.Entry.quiet_or_makes`, `Tracker.find?_commit`.
-/
import Mathlib.Tactic.Common
import ClusterKit.Outcome
import ClusterKit.Proofs.Tracker.View

namespace ClusterKit

namespace Change

/-- What the change leaves in place of what was there. -/
def result? : Change α → Option α
  | .added o => some o
  | .modified o => some o
  | .deleted _ => none

/-- The event that tells of the change. -/
def event : Change α → WatchEvent α
  | .added o => .added o
  | .modified o => .modified o
  | .deleted o => .deleted o

/-- The change from what is at a place before to what is there after. -/
def between? : Option α → Option α → Option (Change α)
  | none, some o => some (.added o)
  | some _, some o => some (.modified o)
  | some o, none => some (.deleted o)
  | none, none => none

@[simp] theorem object?_event (c : Change α) : c.event.object? = some c.object := by
  cases c <;> rfl

end Change

/-- The two objects differ in their metadata at most. -/
def Erased.SameBody (o o' : Erased) : Prop :=
  o.types = o'.types ∧ o.data = o'.data

namespace Tracker

/-- A call on a tracker, or on the receiver of one of its subscriptions. -/
inductive Call
  | add (r : GroupVersionResource) (o : Erased)
  | create (r : GroupVersionResource) (ns : String) (o : Erased) (p : PostParams)
  | update (r : GroupVersionResource) (ns : String) (o : Erased) (p : PostParams)
  | delete (r : GroupVersionResource) (ns name : String) (p : DeleteParams)
  | get (r : GroupVersionResource) (ns name : String)
  | list (r : GroupVersionResource) (ns : String)
  | watch (r : GroupVersionResource) (ns : String)
  | drain (id : Nat)
  | close (id : Nat)
  | unsubscribe (id : Nat)

/-- What a call is answered with. -/
inductive Answer
  | done
  | object (o : Erased)
  | list (l : ObjectList Erased)
  | subscribed (id : Nat)
  | events (es : List (WatchEvent Erased))

/-- The answer of a write, which leaves the tracker as it is if it fails. -/
def answered (t : Tracker) : Except Status (Erased × Tracker) → Except Status Answer × Tracker
  | .ok (o, t) => (.ok (.object o), t)
  | .error s => (.error s, t)

/-- The answer to a call, and the tracker after it. -/
def perform (t : Tracker) : Call → Except Status Answer × Tracker
  | .add r o =>
    match t.add r o with
    | .ok t => (.ok .done, t)
    | .error s => (.error s, t)
  | .create r ns o p => t.answered (t.create r ns o p)
  | .update r ns o p => t.answered (t.update r ns o p)
  | .delete r ns name p => t.answered (t.delete r ns name p)
  | .get r ns name => ((t.get r ns name).map .object, t)
  | .list r ns => (.ok (.list (t.list r ns)), t)
  | .watch r ns => (.ok (.subscribed (t.watch r ns).1), (t.watch r ns).2)
  | .drain id => (.ok (.events (t.drain id).1), (t.drain id).2)
  | .close id => (.ok .done, t.close id)
  | .unsubscribe id => (.ok .done, t.unsubscribe id)

namespace Call

/-- Whether the call is meant to change an object, and not only tried. -/
def isWrite : Call → Bool
  | .add .. => true
  | .create _ _ _ p => !p.dryRun
  | .update _ _ _ p => !p.dryRun
  | .delete _ _ _ p => !p.dryRun
  | _ => false

/-- The collection and the key that a write is about. -/
def target? : Call → Option (GroupVersionResource × ObjectKey)
  | .add r o => (place r "" o).toOption.map fun p => (r, p.1)
  | .create r ns o _ => (place r ns o).toOption.map fun p => (r, p.1)
  | .update r ns o _ => (place r ns o).toOption.map fun p => (r, p.1)
  | .delete r ns name _ => some (r, ⟨ns, name⟩)
  | _ => none

/-- The object that a call is to store. -/
def object? : Call → Option Erased
  | .add _ o => some o
  | .create _ _ o _ => some o
  | .update _ _ o _ => some o
  | _ => none

/-- The tracker after a call as far as it is about subscriptions. -/
def tend (t : Tracker) : Call → Tracker
  | .watch r ns => (t.watch r ns).2
  | .drain id => (t.drain id).2
  | .close id => t.close id
  | .unsubscribe id => t.unsubscribe id
  | _ => t

end Call

/-- A change of the object at one key of a collection. -/
structure Mutation where
  resource : GroupVersionResource
  key : ObjectKey
  change : Change Erased

/-- A call of a run, with the tracker that it meets. -/
structure Entry where
  before : Tracker
  call : Call

namespace Entry

/-- The answer to the call. -/
def answer (e : Entry) : Except Status Answer :=
  (e.before.perform e.call).1

/-- The tracker after the call. -/
def after (e : Entry) : Tracker :=
  (e.before.perform e.call).2

/-- Whether the call does not fail. -/
def succeeded (e : Entry) : Bool :=
  e.answer.isOk

/-- Whether the call is a write that takes effect. -/
def isEffective (e : Entry) : Bool :=
  e.call.isWrite && e.succeeded

/-- The mutation by a write that takes effect: what is at its key before and after it. -/
def mutation? (e : Entry) : Option Mutation :=
  if e.isEffective then do
    let (r, k) ← e.call.target?
    let c ← Change.between? (e.before.find? r k) (e.after.find? r k)
    return ⟨r, k, c⟩
  else none

end Entry

/-! ### Mutations -/

/-- The tracker after a mutation, of which everyone concerned is told. -/
def commit (t : Tracker) (m : Mutation) : Tracker :=
  match m.change.result? with
  | some o =>
    ({ t with version := t.version + 1 }.put m.resource m.key o).publish m.resource m.change.event
  | none => (t.remove m.resource m.key).publish m.resource m.change.event

/-- The mutation is one that the tracker can make next. -/
structure Mutation.Fits (m : Mutation) (t : Tracker) : Prop where
  change : Change.between? (t.find? m.resource m.key) m.change.result? = some m.change
  place : ∀ o, m.change.result? = some o → o.IsAt m.key
  version : ∀ o, m.change.result? = some o →
    o.metadata.resourceVersion = some (toString (t.version + 1))

section

variable (t : Tracker) (m : Mutation)

theorem find?_commit (r : GroupVersionResource) (k : ObjectKey) :
    (t.commit m).find? r k =
      if r = m.resource ∧ k = m.key then m.change.result? else t.find? r k := by
  unfold commit
  split <;> rename_i h
  · rw [find?_publish, find?_put, h]
    rfl
  · rw [find?_publish, find?_remove, h]

theorem version_commit :
    (t.commit m).version = t.version + if m.change.result?.isSome then 1 else 0 := by
  unfold commit
  split <;> rename_i h <;> simp [h, put, remove]

theorem nextSubscription_commit : (t.commit m).nextSubscription = t.nextSubscription := by
  unfold commit
  split <;> rfl

theorem subscription_commit (id : Nat) (h : t.isOpen id = true) :
    (t.commit m).subscriptions.get? id = t.subscriptions.get? id := by
  have hopen : ∀ t' : Tracker, t'.receivers = t.receivers → t'.isOpen id = true := by
    intro t' ht
    rw [isOpen, ht]
    exact h
  unfold commit
  split <;> exact subscription_prune_of_isOpen _ _ id (hopen _ rfl)

theorem receiver_commit (id : Nat) : (t.commit m).receivers.get? id =
    (t.receivers.get? id).map fun c =>
      if (t.subscriptions.get? id).any (·.wants m.resource m.change.event)
        then c.send m.change.event else c := by
  unfold commit
  split <;> rw [receiver_publish] <;> rfl

theorem store_added (r : GroupVersionResource) (k : ObjectKey) (o : Erased) :
    t.store r k o .added = (atVersion (some (toString (t.version + 1))) o,
      t.commit ⟨r, k, .added (atVersion (some (toString (t.version + 1))) o)⟩) := rfl

theorem store_modified (r : GroupVersionResource) (k : ObjectKey) (o : Erased) :
    t.store r k o .modified = (atVersion (some (toString (t.version + 1))) o,
      t.commit ⟨r, k, .modified (atVersion (some (toString (t.version + 1))) o)⟩) := rfl

end

/-! ### What a write does -/

theorem add_cases (t : Tracker) (r : GroupVersionResource) (o : Erased) :
    (∃ s, t.add r o = .error s) ∨
    (∃ k o', place r "" o = .ok (k, o') ∧
      t.add r o = .ok (t.store r k o'
        (if (t.find? r k).isSome then .modified else .added)).2) := by
  unfold add
  cases hp : place r "" o with
  | error s => exact .inl ⟨s, rfl⟩
  | ok p =>
    obtain ⟨k, o'⟩ := p
    exact .inr ⟨k, o', rfl, rfl⟩

theorem create_cases (t : Tracker) (r : GroupVersionResource) (ns : String) (o : Erased)
    (p : PostParams) :
    (∃ s, t.create r ns o p = .error s) ∨
    (∃ k o', place r ns o = .ok (k, o') ∧ t.find? r k = none ∧
      ((p.dryRun = true ∧ t.create r ns o p = .ok (atVersion none o', t)) ∨
       (p.dryRun = false ∧ t.create r ns o p = .ok (t.store r k o' .added)))) := by
  unfold create
  cases hp : place r ns o with
  | error s => exact .inl ⟨s, rfl⟩
  | ok q =>
    obtain ⟨k, o'⟩ := q
    cases hf : t.find? r k with
    | some old =>
      left
      simp [hf]
    | none =>
      refine .inr ⟨k, o', rfl, hf, ?_⟩
      cases hd : p.dryRun
      · exact .inr ⟨rfl, by simp [hf]⟩
      · exact .inl ⟨rfl, by simp [hf]⟩

theorem update_cases (t : Tracker) (r : GroupVersionResource) (ns : String) (o : Erased)
    (p : PostParams) :
    (∃ s, t.update r ns o p = .error s) ∨
    (∃ k o' stored, place r ns o = .ok (k, o') ∧ t.find? r k = some stored ∧
      (∀ v, claimedVersion o' = some v → stored.metadata.resourceVersion = some v) ∧
      ((p.dryRun = true ∧
          t.update r ns o p = .ok (atVersion stored.metadata.resourceVersion o', t)) ∨
       (p.dryRun = false ∧ t.update r ns o p = .ok (t.store r k o' .modified)))) := by
  unfold update
  cases hp : place r ns o with
  | error s => exact .inl ⟨s, rfl⟩
  | ok q =>
    obtain ⟨k, o'⟩ := q
    cases hf : t.find? r k with
    | none =>
      left
      simp [hf]
    | some stored =>
      by_cases hv : (claimedVersion o').isSome = true ∧
          ¬ claimedVersion o' = stored.metadata.resourceVersion
      · left
        simp [hf, hv]
      · refine .inr ⟨k, o', stored, rfl, hf, ?_, ?_⟩
        · intro v h
          by_contra hne
          exact hv ⟨by simp [h], fun he => hne (he ▸ h)⟩
        · cases hd : p.dryRun
          · exact .inr ⟨rfl, by simp [hf, hv]⟩
          · exact .inl ⟨rfl, by simp [hf, hv]⟩

/-- An object of an empty version says none. -/
theorem claimedVersion_of_unversioned {o : Erased} (h : o.metadata.resourceVersion.getD "" = "") :
    claimedVersion o = none := by
  unfold claimedVersion
  cases hm : o.metadata.resourceVersion with
  | none => rfl
  | some v =>
    have hv : v = "" := by simpa [hm] using h
    simp [Option.filter, hv]

section

variable {t : Tracker} {r : GroupVersionResource} {ns : String} {o o' old : Erased} {k : ObjectKey}
  {p : PostParams} (hplace : place r ns o = .ok (k, o'))

include hplace

theorem create_of_absent (hf : t.find? r k = none) (hp : p.dryRun = false) :
    t.create r ns o p = .ok (t.store r k o' .added) := by
  simp [create, hplace, hf, hp]

theorem create_of_present (hf : t.find? r k = some old) :
    t.create r ns o p = .error (.alreadyExists r k.name) := by
  simp [create, hplace, hf]

/-- What says no version is stored in place of whatever is there. -/
theorem update_of_present (hf : t.find? r k = some old) (hv : claimedVersion o' = none)
    (hp : p.dryRun = false) : t.update r ns o p = .ok (t.store r k o' .modified) := by
  simp [update, hplace, hf, hv, hp]

end

theorem version_of_checkPreconditions {r : GroupVersionResource} {stored : Erased}
    {c : Preconditions} (h : checkPreconditions r stored c = .ok ()) :
    ∀ v, c.resourceVersion = some v → stored.metadata.resourceVersion = some v := by
  intro v hv
  by_contra hne
  unfold checkPreconditions at h
  cases hu : c.uid with
  | none =>
    simp [hu, hv, hne] at h
  | some uid =>
    by_cases hm : stored.metadata.uid = some uid
    · simp [hu, hv, hne, hm] at h
    · simp [hu, hm] at h

theorem delete_cases (t : Tracker) (r : GroupVersionResource) (ns name : String)
    (p : DeleteParams) :
    (∃ s, t.delete r ns name p = .error s) ∨
    (∃ stored, t.find? r ⟨ns, name⟩ = some stored ∧
      (∀ c, p.preconditions = some c → checkPreconditions r stored c = .ok ()) ∧
      ((p.dryRun = true ∧ t.delete r ns name p = .ok (stored, t)) ∨
       (p.dryRun = false ∧ t.delete r ns name p =
          .ok (stored, (t.remove r ⟨ns, name⟩).publish r (.deleted stored))))) := by
  unfold delete
  cases hf : t.find? r ⟨ns, name⟩ with
  | none =>
    left
    simp
  | some stored =>
    cases hc : p.preconditions with
    | none =>
      refine .inr ⟨stored, rfl, by simp, ?_⟩
      cases hd : p.dryRun
      · exact .inr ⟨rfl, by simp⟩
      · exact .inl ⟨rfl, by simp⟩
    | some c =>
      cases hk : checkPreconditions r stored c with
      | error s =>
        left
        exact ⟨s, by simp [hk]⟩
      | ok u =>
        refine .inr ⟨stored, rfl, by simpa using hk, ?_⟩
        cases hd : p.dryRun
        · exact .inr ⟨rfl, by simp [hk]⟩
        · exact .inl ⟨rfl, by simp [hk]⟩

/-! ### What a call does -/

section

variable {t : Tracker} {r : GroupVersionResource} {ns : String} {k : ObjectKey} {o o' : Erased}
  (hp : place r ns o = .ok (k, o'))

include hp

/-- To store what has been placed is a change that fits, and leaves all but its metadata. -/
theorem fits_of_place {change : Erased → Change Erased} (hresult : ∀ s, (change s).result? = some s)
    (hchange : ∀ s, Change.between? (t.find? r k) (some s) = some (change s)) :
    let stored := atVersion (some (toString (t.version + 1))) o'
    Mutation.Fits ⟨r, k, change stored⟩ t ∧ stored.SameBody o := by
  intro stored
  have hat := (place_isAt hp).atVersion (some (toString (t.version + 1)))
  refine ⟨⟨?_, ?_, ?_⟩, ?_⟩
  · exact (congrArg _ (hresult stored)).trans (hchange stored)
  · intro s hs
    obtain rfl := Option.some.inj ((hresult stored).symm.trans hs)
    exact hat
  · intro s hs
    obtain rfl := Option.some.inj ((hresult stored).symm.trans hs)
    rfl
  · obtain ⟨ns', rfl⟩ := place_object hp
    exact ⟨rfl, rfl⟩

/-- Storing an object is a mutation that fits, and changes nothing but its metadata. -/
theorem store_eq_commit (added : Bool) (hadded : added = !(t.find? r k).isSome) :
    ∃ m : Mutation, m.resource = r ∧ m.key = k ∧ m.Fits t ∧ m.change.result?.isSome = true ∧
      (∀ s, m.change.result? = some s → s.SameBody o) ∧
      (t.store r k o' (if added then .added else .modified)).2 = t.commit m := by
  have hresult : ∀ s : Erased,
      (if added then Change.added s else .modified s).result? = some s := by
    intro s
    cases added <;> rfl
  have hchange : ∀ s, Change.between? (t.find? r k) (some s) =
      some (if added then .added s else .modified s) := by
    intro s
    cases hf : t.find? r k <;> simp [hadded, hf, Change.between?]
  obtain ⟨hfits, hbody⟩ := fits_of_place hp hresult hchange
  refine ⟨_, rfl, rfl, hfits, ?_, ?_, ?_⟩
  · exact congrArg Option.isSome (hresult _)
  · intro s hs
    exact Option.some.inj ((hresult _).symm.trans hs) ▸ hbody
  · cases added <;> rfl

end

namespace Entry

/-- The call leaves the objects alone and at most tends to subscriptions. -/
structure IsQuiet (e : Entry) : Prop where
  mutation : e.mutation? = none
  isEffective : e.isEffective = false
  after : e.after = e.call.tend e.before

/-- The call makes the mutation `m`. -/
structure Makes (e : Entry) (m : Mutation) : Prop where
  mutation : e.mutation? = some m
  isEffective : e.isEffective = true
  fits : m.Fits e.before
  stores : m.change.result?.isSome = e.call.object?.isSome
  body : ∀ s, m.change.result? = some s → ∃ o, e.call.object? = some o ∧ s.SameBody o
  after : e.after = e.before.commit m

theorem isQuiet_of {e : Entry} (h : e.isEffective = false)
    (ha : e.after = e.call.tend e.before) : e.IsQuiet :=
  ⟨by simp [mutation?, h], h, ha⟩

theorem makes_of {e : Entry} {m : Mutation} (he : e.isEffective = true)
    (ht : e.call.target? = some (m.resource, m.key)) (hf : m.Fits e.before)
    (hs : m.change.result?.isSome = e.call.object?.isSome)
    (hb : ∀ s, m.change.result? = some s → ∃ o, e.call.object? = some o ∧ s.SameBody o)
    (ha : e.after = e.before.commit m) : e.Makes m := by
  refine ⟨?_, he, hf, hs, hb, ha⟩
  have hc : Change.between? (e.before.find? m.resource m.key) (e.after.find? m.resource m.key) =
      some m.change := by
    rw [ha, find?_commit, if_pos ⟨rfl, rfl⟩]
    exact hf.change
  simp [mutation?, he, ht, hc]

variable (t : Tracker) (r : GroupVersionResource) (ns : String) (o : Erased)

theorem add_quiet_or_makes :
    (Entry.mk t (.add r o)).IsQuiet ∨ ∃ m, (Entry.mk t (.add r o)).Makes m := by
  rcases add_cases t r o with ⟨s, h⟩ | ⟨k, o', hp, h⟩
  · left
    apply isQuiet_of <;>
      simp [isEffective, succeeded, answer, after, perform, h, Except.isOk, Except.toBool,
        Call.tend]
  · right
    obtain ⟨m, rfl, rfl, hf, ho, hb, hs⟩ := store_eq_commit hp (!(t.find? r k).isSome) rfl
    refine ⟨m, makes_of ?_ ?_ hf ho (fun s h => ⟨o, rfl, hb s h⟩) ?_⟩
    · simp [isEffective, Call.isWrite, succeeded, answer, perform, h, Except.isOk, Except.toBool]
    · simp [Call.target?, hp, Except.toOption]
    · simp only [after, perform, h, ← hs]
      cases (t.find? m.resource m.key).isSome <;> rfl

theorem create_quiet_or_makes (p : PostParams) :
    (Entry.mk t (.create r ns o p)).IsQuiet ∨ ∃ m, (Entry.mk t (.create r ns o p)).Makes m := by
  rcases create_cases t r ns o p with ⟨s, h⟩ | ⟨k, o', hp, hf, ⟨hd, h⟩ | ⟨hd, h⟩⟩
  · left
    apply isQuiet_of <;>
      simp [isEffective, succeeded, answer, after, perform, answered, h, Except.isOk, Except.toBool,
        Call.tend]
  · left
    apply isQuiet_of <;>
      simp [isEffective, Call.isWrite, hd, after, perform, answered, h, Call.tend]
  · right
    obtain ⟨m, rfl, rfl, hfit, ho, hb, hs⟩ := store_eq_commit hp true (by rw [hf]; rfl)
    refine ⟨m, makes_of ?_ ?_ hfit ho (fun s h => ⟨o, rfl, hb s h⟩) ?_⟩
    · simp [isEffective, Call.isWrite, hd, succeeded, answer, perform, answered, h, Except.isOk,
        Except.toBool]
    · simp [Call.target?, hp, Except.toOption]
    · simp only [after, perform, answered, h, ← hs]
      rfl

theorem update_quiet_or_makes (p : PostParams) :
    (Entry.mk t (.update r ns o p)).IsQuiet ∨ ∃ m, (Entry.mk t (.update r ns o p)).Makes m := by
  rcases update_cases t r ns o p with ⟨s, h⟩ | ⟨k, o', old, hp, hf, -, ⟨hd, h⟩ | ⟨hd, h⟩⟩
  · left
    apply isQuiet_of <;>
      simp [isEffective, succeeded, answer, after, perform, answered, h, Except.isOk, Except.toBool,
        Call.tend]
  · left
    apply isQuiet_of <;>
      simp [isEffective, Call.isWrite, hd, after, perform, answered, h, Call.tend]
  · right
    obtain ⟨m, rfl, rfl, hfit, ho, hb, hs⟩ := store_eq_commit hp false (by rw [hf]; rfl)
    refine ⟨m, makes_of ?_ ?_ hfit ho (fun s h => ⟨o, rfl, hb s h⟩) ?_⟩
    · simp [isEffective, Call.isWrite, hd, succeeded, answer, perform, answered, h, Except.isOk,
        Except.toBool]
    · simp [Call.target?, hp, Except.toOption]
    · simp only [after, perform, answered, h, ← hs]
      rfl

theorem delete_quiet_or_makes (name : String) (p : DeleteParams) :
    (Entry.mk t (.delete r ns name p)).IsQuiet ∨
      ∃ m, (Entry.mk t (.delete r ns name p)).Makes m := by
  rcases delete_cases t r ns name p with ⟨s, h⟩ | ⟨old, hf, -, ⟨hd, h⟩ | ⟨hd, h⟩⟩
  · left
    apply isQuiet_of <;>
      simp [isEffective, succeeded, answer, after, perform, answered, h, Except.isOk, Except.toBool,
        Call.tend]
  · left
    apply isQuiet_of <;>
      simp [isEffective, Call.isWrite, hd, after, perform, answered, h, Call.tend]
  · right
    refine ⟨⟨r, ⟨ns, name⟩, .deleted old⟩, makes_of ?_ rfl ?_ rfl (by simp [Change.result?]) ?_⟩
    · simp [isEffective, Call.isWrite, hd, succeeded, answer, perform, answered, h, Except.isOk,
        Except.toBool]
    · refine ⟨?_, ?_, ?_⟩
      · simp [hf, Change.between?, Change.result?]
      · simp [Change.result?]
      · simp [Change.result?]
    · simp only [after, perform, answered, h]
      rfl

end Entry

/-- A call either tends to subscriptions at most, or it makes the one mutation
that can be read off the objects. -/
theorem Entry.quiet_or_makes (e : Entry) : e.IsQuiet ∨ ∃ m, e.Makes m := by
  obtain ⟨t, c⟩ := e
  cases c with
  | add r o => exact add_quiet_or_makes t r o
  | create r ns o p => exact create_quiet_or_makes t r ns o p
  | update r ns o p => exact update_quiet_or_makes t r ns o p
  | delete r ns name p => exact delete_quiet_or_makes t r ns name p
  | get r ns name => exact .inl (isQuiet_of rfl rfl)
  | list r ns => exact .inl (isQuiet_of rfl rfl)
  | watch r ns => exact .inl (isQuiet_of rfl rfl)
  | drain id => exact .inl (isQuiet_of rfl rfl)
  | close id => exact .inl (isQuiet_of rfl rfl)
  | unsubscribe id => exact .inl (isQuiet_of rfl rfl)

/-! ### Tending to subscriptions -/

section

variable (t : Tracker) (c : Call)

theorem objects_tend : (c.tend t).objects = t.objects := by
  cases c with
  | drain id =>
    simp only [Call.tend, drain]
    split <;> rfl
  | close id =>
    simp only [Call.tend, close]
    split <;> rfl
  | _ => rfl

theorem version_tend : (c.tend t).version = t.version := by
  cases c with
  | drain id =>
    simp only [Call.tend, drain]
    split <;> rfl
  | close id =>
    simp only [Call.tend, close]
    split <;> rfl
  | _ => rfl

@[simp] theorem find?_tend (r : GroupVersionResource) (k : ObjectKey) :
    (c.tend t).find? r k = t.find? r k :=
  find?_congr (objects_tend t c) r k

end

end Tracker
end ClusterKit
