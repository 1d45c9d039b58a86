/-
# The tracker as a keyed map

For all that a caller can tell from the answers of `get`, `list`, `create`,
`update` and `delete`, a tracker is a plain map from collections and keys to
objects. A write succeeds just if its object can be placed, its key is in the
right state and what is stored there is what the caller expects; it fails for
the first of these that does not hold, in that order. One that takes effect
changes the map at its own key, and nowhere else. What a create or an update
answers with is the object of the call, but for its version and namespace.

The theorem is about every tracker, and so about every one that can be reached.

Key definitions: `Tracker.effectiveKey`, `Tracker.Placeable`, `Tracker.KeepsAt`,
`Tracker.Replaces`.
Key theorems: `Tracker.refines_keyed_map`.
-/
import Mathlib.Tactic.Common
import ClusterKit.Proofs.Tracker.Call

namespace ClusterKit
namespace Tracker

/-! ### What a write asks for -/

/-- The key that a create or update on namespace `ns` is about: the namespace that
the object names counts, and that of the call where it names none. -/
def effectiveKey (ns : String) (o : Erased) : ObjectKey :=
  let own := o.metadata.ns.getD ""
  ⟨if own = "" then ns else own, o.metadata.name.getD ""⟩

/-- A call on namespace `ns` may store the object. -/
structure Placeable (ns : String) (o : Erased) : Prop where
  named : o.metadata.name.getD "" ≠ ""
  inside : o.metadata.ns.getD "" = "" ∨ o.metadata.ns.getD "" = ns ∨ ns = ""

/-- The version that an object carries, if it carries one, is that of the stored one. -/
def CarriesVersionOf (stored o : Erased) : Prop :=
  o.metadata.resourceVersion.getD "" = "" ∨
    o.metadata.resourceVersion = stored.metadata.resourceVersion

/-- The stored object has each of the things that are given. -/
structure Meets (stored : Erased) (c : Preconditions) : Prop where
  uid : ∀ uid, c.uid = some uid → stored.metadata.uid = some uid
  resourceVersion : ∀ v, c.resourceVersion = some v → stored.metadata.resourceVersion = some v

/-- The object `o'` belongs at the key and is `o` otherwise, but for its version. -/
structure KeepsAt (k : ObjectKey) (o o' : Erased) : Prop where
  place : o'.IsAt k
  body : o'.SameBody o
  metadata : { o'.metadata with
    ns := o.metadata.ns, resourceVersion := o.metadata.resourceVersion } = o.metadata

section

variable {r : GroupVersionResource} {ns : String} {o : Erased}

theorem KeepsAt.atVersion {k : ObjectKey} {o' : Erased} (h : KeepsAt k o o') (v : Option String) :
    KeepsAt k o (Tracker.atVersion v o') :=
  ⟨h.place.atVersion v, h.body, h.metadata⟩

theorem keepsAt_of_place {k : ObjectKey} {o' : Erased} (h : place r ns o = .ok (k, o')) :
    KeepsAt k o o' := by
  have hbody : o'.SameBody o ∧ { o'.metadata with
      ns := o.metadata.ns, resourceVersion := o.metadata.resourceVersion } = o.metadata := by
    unfold place at h
    dsimp only at h
    split_ifs at h
    all_goals
      cases h
      exact ⟨⟨rfl, rfl⟩, rfl⟩
  exact ⟨place_isAt h, hbody.1, hbody.2⟩

theorem place_of_placeable (h : Placeable ns o) :
    ∃ o', place r ns o = .ok (effectiveKey ns o, o') ∧
      o'.metadata.resourceVersion = o.metadata.resourceVersion := by
  have hname : (o.metadata.name.getD "").isEmpty = false := by
    simpa [String.isEmpty_iff] using h.named
  unfold place effectiveKey
  simp only [hname, Bool.false_eq_true, if_false, String.isEmpty_iff]
  by_cases hown : o.metadata.ns.getD "" = ""
  · simp [hown]
  · have hin : Subscription.covers ns (o.metadata.ns.getD "") = true := by
      rcases h.inside with h | h | h
      · exact absurd h hown
      · simp [Subscription.covers, h]
      · simp [Subscription.covers, h]
    simp [hown, hin]

theorem place_of_not_placeable (h : ¬ Placeable ns o) :
    ∃ cause, place r ns o = .error (.invalid r (o.metadata.name.getD "") cause) := by
  unfold place
  by_cases hname : o.metadata.name.getD "" = ""
  · exact ⟨nameRequired, by simp [hname]⟩
  · have hin : ¬ (o.metadata.ns.getD "" = "" ∨ o.metadata.ns.getD "" = ns ∨ ns = "") :=
      fun hin => h ⟨hname, hin⟩
    push Not at hin
    have hout : Subscription.covers ns (o.metadata.ns.getD "") = false := by
      simp [Subscription.covers, hin.2.2, Ne.symm hin.2.1]
    exact ⟨foreignNamespace, by simp [String.isEmpty_iff, hname, hin.1, hout]⟩

/-- An update goes ahead just if its object carries no other version. -/
theorem not_outdated_iff {stored : Erased} :
    ((claimedVersion o).isSome && claimedVersion o != stored.metadata.resourceVersion) = false ↔
      CarriesVersionOf stored o := by
  unfold CarriesVersionOf claimedVersion
  cases o.metadata.resourceVersion with
  | none => simp
  | some v =>
    by_cases hv : v = ""
    · simp [hv, Option.filter]
    · simp [hv, Option.filter]

/-- Preconditions are met, or the check names one that is not. -/
theorem checkPreconditions_cases (r : GroupVersionResource) (stored : Erased)
    (c : Preconditions) :
    (checkPreconditions r stored c = .ok () ∧ Meets stored c) ∨
    (¬ Meets stored c ∧ ∃ cause, checkPreconditions r stored c =
      .error (.conflict r (stored.metadata.name.getD "") cause)) := by
  obtain ⟨version?, uid?⟩ := c
  by_cases hu : ∀ uid, uid? = some uid → stored.metadata.uid = some uid
  · have hpass : checkPreconditions r stored ⟨version?, uid?⟩ =
        checkPreconditions r stored ⟨version?, none⟩ := by
      cases uid? with
      | none => rfl
      | some uid => simp [checkPreconditions, hu uid rfl]
    by_cases hv : ∀ v, version? = some v → stored.metadata.resourceVersion = some v
    · refine .inl ⟨?_, hu, hv⟩
      rw [hpass]
      cases version? with
      | none => rfl
      | some v => simp [checkPreconditions, hv v rfl]
    · refine .inr ⟨fun h => hv h.resourceVersion, ?_⟩
      push Not at hv
      obtain ⟨v, rfl, hne⟩ := hv
      rw [hpass]
      exact ⟨_, by simp [checkPreconditions, hne]; rfl⟩
  · refine .inr ⟨fun h => hu h.uid, ?_⟩
    push Not at hu
    obtain ⟨uid, rfl, hne⟩ := hu
    exact ⟨_, by simp [checkPreconditions, hne]; rfl⟩

end

/-! ### What a write leaves -/

/-- Of the two trackers, the second differs from the first at one key, where it
has the object `o?` or none, and in versions of lists. -/
structure Replaces (t t' : Tracker) (r : GroupVersionResource) (k : ObjectKey)
    (o? : Option Erased) : Prop where
  here : t'.get r k.ns k.name = o?.elim (.error (.notFound r k.name)) .ok
  get_elsewhere : ∀ r' ns name, (r', ObjectKey.mk ns name) ≠ (r, k) →
    t'.get r' ns name = t.get r' ns name
  list_elsewhere : ∀ r' ns, r' ≠ r → ∃ v, t'.list r' ns =
    ⟨{ (t.list r' ns).metadata with resourceVersion := v }, (t.list r' ns).items⟩

theorem replaces_of_commit (t : Tracker) (m : Mutation) :
    t.Replaces (t.commit m) m.resource m.key m.change.result? := by
  refine ⟨?_, ?_, ?_⟩
  · unfold get
    rw [find?_commit, if_pos ⟨rfl, rfl⟩]
    cases m.change.result? <;> rfl
  · intro r' ns name hne
    unfold get
    rw [find?_commit, if_neg fun h => hne (Prod.ext h.1 h.2)]
  · intro r' ns hne
    have hc : (t.commit m).collection r' = t.collection r' := by
      unfold commit
      split
      · exact (collection_put _ _ _ _ r').trans (if_neg hne)
      · exact (collection_remove _ _ _ r').trans (if_neg hne)
    refine ⟨some (toString (t.commit m).version), ?_⟩
    unfold list
    rw [hc]
    rfl

/-! ### Calls -/

/-- A create on namespace `ns` does what it does on a plain map. -/
structure CreatesAsMap (t : Tracker) (r : GroupVersionResource) (ns : String) (o : Erased)
    (p : PostParams) : Prop where
  succeeds : (t.create r ns o p).isOk ↔
    Placeable ns o ∧ t.find? r (effectiveKey ns o) = none
  invalid : ¬ Placeable ns o → ∃ cause,
    t.create r ns o p = .error (.invalid r (effectiveKey ns o).name cause)
  alreadyExists : Placeable ns o → t.find? r (effectiveKey ns o) ≠ none →
    t.create r ns o p = .error (.alreadyExists r (effectiveKey ns o).name)
  answers : ∀ o' t', t.create r ns o p = .ok (o', t') → KeepsAt (effectiveKey ns o) o o'
  stores : ∀ o' t', t.create r ns o p = .ok (o', t') → p.dryRun = false →
    t.Replaces t' r (effectiveKey ns o) (some o')

/-- An update on namespace `ns` does what it does on a plain map. -/
structure UpdatesAsMap (t : Tracker) (r : GroupVersionResource) (ns : String) (o : Erased)
    (p : PostParams) : Prop where
  succeeds : (t.update r ns o p).isOk ↔ Placeable ns o ∧
    ∃ stored, t.find? r (effectiveKey ns o) = some stored ∧ CarriesVersionOf stored o
  invalid : ¬ Placeable ns o → ∃ cause,
    t.update r ns o p = .error (.invalid r (effectiveKey ns o).name cause)
  notFound : Placeable ns o → t.find? r (effectiveKey ns o) = none →
    t.update r ns o p = .error (.notFound r (effectiveKey ns o).name)
  conflict : Placeable ns o → ∀ stored, t.find? r (effectiveKey ns o) = some stored →
    ¬ CarriesVersionOf stored o →
    ∃ cause, t.update r ns o p = .error (.conflict r (effectiveKey ns o).name cause)
  answers : ∀ o' t', t.update r ns o p = .ok (o', t') → KeepsAt (effectiveKey ns o) o o'
  stores : ∀ o' t', t.update r ns o p = .ok (o', t') → p.dryRun = false →
    t.Replaces t' r (effectiveKey ns o) (some o')

/-- A delete in namespace `ns` does what it does on a plain map. -/
structure DeletesAsMap (t : Tracker) (r : GroupVersionResource) (ns name : String)
    (p : DeleteParams) : Prop where
  succeeds : (t.delete r ns name p).isOk ↔
    ∃ stored, t.find? r ⟨ns, name⟩ = some stored ∧ ∀ c, p.preconditions = some c → Meets stored c
  notFound : t.find? r ⟨ns, name⟩ = none →
    t.delete r ns name p = .error (.notFound r name)
  conflict : ∀ stored, t.find? r ⟨ns, name⟩ = some stored →
    ∀ c, p.preconditions = some c → ¬ Meets stored c → ∃ cause,
    t.delete r ns name p = .error (.conflict r (stored.metadata.name.getD "") cause)
  removes : ∀ o' t', t.delete r ns name p = .ok (o', t') → p.dryRun = false →
    t.find? r ⟨ns, name⟩ = some o' ∧ t.Replaces t' r ⟨ns, name⟩ none

section

variable {t : Tracker} {r : GroupVersionResource} {ns name : String} {o stored : Erased}

theorem create_of_not_placeable (hp : ¬ Placeable ns o) (p : PostParams) : ∃ cause,
    t.create r ns o p = .error (.invalid r (effectiveKey ns o).name cause) := by
  obtain ⟨cause, hplace⟩ := place_of_not_placeable (r := r) hp
  exact ⟨cause, by simp [create, hplace, effectiveKey]⟩

theorem create_of_taken (hp : Placeable ns o) (hf : t.find? r (effectiveKey ns o) = some stored)
    (p : PostParams) :
    t.create r ns o p = .error (.alreadyExists r (effectiveKey ns o).name) := by
  obtain ⟨o', hplace, -⟩ := place_of_placeable (r := r) hp
  simp [create, hplace, hf]

theorem create_of_free (hp : Placeable ns o) (hf : t.find? r (effectiveKey ns o) = none)
    (p : PostParams) : ∃ o', KeepsAt (effectiveKey ns o) o o' ∧
      t.create r ns o p = if p.dryRun then .ok (atVersion none o', t)
        else .ok (t.store r (effectiveKey ns o) o' .added) := by
  obtain ⟨o', hplace, -⟩ := place_of_placeable (r := r) hp
  refine ⟨o', keepsAt_of_place hplace, ?_⟩
  simp only [create, hplace, ok_bind, hf, Option.isSome_none, Bool.false_eq_true, if_false]
  cases p.dryRun <;> rfl

theorem update_of_not_placeable (hp : ¬ Placeable ns o) (p : PostParams) : ∃ cause,
    t.update r ns o p = .error (.invalid r (effectiveKey ns o).name cause) := by
  obtain ⟨cause, hplace⟩ := place_of_not_placeable (r := r) hp
  exact ⟨cause, by simp [update, hplace, effectiveKey]⟩

theorem update_of_free (hp : Placeable ns o) (hf : t.find? r (effectiveKey ns o) = none)
    (p : PostParams) : t.update r ns o p = .error (.notFound r (effectiveKey ns o).name) := by
  obtain ⟨o', hplace, -⟩ := place_of_placeable (r := r) hp
  simp [update, hplace, hf]

/-- Being placed, an object carries the version that it has carried. -/
theorem exists_place_not_outdated_iff (hp : Placeable ns o) (stored : Erased) :
    ∃ o', place r ns o = .ok (effectiveKey ns o, o') ∧
      (((claimedVersion o').isSome && claimedVersion o' != stored.metadata.resourceVersion) =
        false ↔ CarriesVersionOf stored o) := by
  obtain ⟨o', hplace, hversion⟩ := place_of_placeable (r := r) hp
  refine ⟨o', hplace, not_outdated_iff.trans ?_⟩
  unfold CarriesVersionOf
  rw [hversion]

theorem update_of_outdated (hp : Placeable ns o)
    (hf : t.find? r (effectiveKey ns o) = some stored) (hv : ¬ CarriesVersionOf stored o)
    (p : PostParams) :
    t.update r ns o p = .error (.conflict r (effectiveKey ns o).name outdated) := by
  obtain ⟨o', hplace, hguard⟩ := exists_place_not_outdated_iff (r := r) hp stored
  have hout := (Bool.not_eq_false _).mp (mt hguard.mp hv)
  simp only [update, hplace, ok_bind, hf, hout, if_true]
  rfl

theorem update_of_current (hp : Placeable ns o)
    (hf : t.find? r (effectiveKey ns o) = some stored) (hv : CarriesVersionOf stored o)
    (p : PostParams) : ∃ o', KeepsAt (effectiveKey ns o) o o' ∧
      t.update r ns o p = if p.dryRun then .ok (atVersion stored.metadata.resourceVersion o', t)
        else .ok (t.store r (effectiveKey ns o) o' .modified) := by
  obtain ⟨o', hplace, hguard⟩ := exists_place_not_outdated_iff (r := r) hp stored
  refine ⟨o', keepsAt_of_place hplace, ?_⟩
  simp only [update, hplace, ok_bind, hf, hguard.mpr hv, Bool.false_eq_true, if_false]
  cases p.dryRun <;> rfl

theorem delete_of_free (hf : t.find? r ⟨ns, name⟩ = none) (p : DeleteParams) :
    t.delete r ns name p = .error (.notFound r name) := by
  simp [delete, hf]

theorem delete_of_not_meets (hf : t.find? r ⟨ns, name⟩ = some stored) {p : DeleteParams}
    {c : Preconditions} (hpre : p.preconditions = some c) (hne : ¬ Meets stored c) : ∃ cause,
    t.delete r ns name p = .error (.conflict r (stored.metadata.name.getD "") cause) := by
  rcases checkPreconditions_cases r stored c with ⟨-, hmeets⟩ | ⟨-, cause, hcheck⟩
  · exact absurd hmeets hne
  · exact ⟨cause, by simp [delete, hf, hpre, hcheck]⟩

theorem delete_of_meets (hf : t.find? r ⟨ns, name⟩ = some stored) {p : DeleteParams}
    (hmeets : ∀ c, p.preconditions = some c → Meets stored c) :
    t.delete r ns name p = if p.dryRun then .ok (stored, t)
      else .ok (stored, t.commit ⟨r, ⟨ns, name⟩, .deleted stored⟩) := by
  cases hpre : p.preconditions with
  | none =>
    simp only [delete, hf, hpre]
    cases p.dryRun <;> rfl
  | some c =>
    rcases checkPreconditions_cases r stored c with ⟨hok, -⟩ | ⟨hne, -⟩
    · simp only [delete, hf, hpre, hok]
      cases p.dryRun <;> rfl
    · exact absurd (hmeets c hpre) hne

variable (t r ns o)

theorem createsAsMap (p : PostParams) : CreatesAsMap t r ns o p := by
  by_cases hp : Placeable ns o
  · cases hf : t.find? r (effectiveKey ns o) with
    | some old =>
      have hc := create_of_taken hp hf p
      exact
        { succeeds := by simp [hc, hf, Except.isOk, Except.toBool]
          invalid := fun h => absurd hp h
          alreadyExists := fun _ _ => hc
          answers := fun o' t' h => by simp [hc] at h
          stores := fun o' t' h => by simp [hc] at h }
    | none =>
      obtain ⟨o', hkeeps, hc⟩ := create_of_free hp hf p
      refine
        { succeeds := ?_
          invalid := fun h => absurd hp h
          alreadyExists := fun _ h => absurd hf h
          answers := ?_
          stores := ?_ }
      · rw [hc]
        cases p.dryRun <;> simp [hp, hf, Except.isOk, Except.toBool]
      · intro o'' t' h
        rw [hc] at h
        split at h <;> cases h <;> exact hkeeps.atVersion _
      · intro o'' t' h hd
        rw [hc, hd, store_added] at h
        cases h
        exact replaces_of_commit t _
  · obtain ⟨cause, hc⟩ := create_of_not_placeable (t := t) (r := r) hp p
    exact
      { succeeds := by simp [hc, hp, Except.isOk, Except.toBool]
        invalid := fun _ => ⟨cause, hc⟩
        alreadyExists := fun h => absurd h hp
        answers := fun o' t' h => by simp [hc] at h
        stores := fun o' t' h => by simp [hc] at h }

theorem updatesAsMap (p : PostParams) : UpdatesAsMap t r ns o p := by
  by_cases hp : Placeable ns o
  · cases hf : t.find? r (effectiveKey ns o) with
    | none =>
      have hc := update_of_free hp hf p
      exact
        { succeeds := by simp [hc, hf, Except.isOk, Except.toBool]
          invalid := fun h => absurd hp h
          notFound := fun _ _ => hc
          conflict := fun _ stored h => by simp [hf] at h
          answers := fun o' t' h => by simp [hc] at h
          stores := fun o' t' h => by simp [hc] at h }
    | some stored =>
      by_cases hv : CarriesVersionOf stored o
      · obtain ⟨o', hkeeps, hc⟩ := update_of_current hp hf hv p
        refine
          { succeeds := ?_
            invalid := fun h => absurd hp h
            notFound := fun _ h => by simp [hf] at h
            conflict := fun _ old h hne => ?_
            answers := ?_
            stores := ?_ }
        · rw [hc]
          cases p.dryRun <;> simp [hp, hf, hv, Except.isOk, Except.toBool]
        · rw [hf] at h
          cases h
          exact absurd hv hne
        · intro o'' t' h
          rw [hc] at h
          split at h <;> cases h <;> exact hkeeps.atVersion _
        · intro o'' t' h hd
          rw [hc, hd, store_modified] at h
          cases h
          exact replaces_of_commit t _
      · have hc := update_of_outdated hp hf hv p
        exact
          { succeeds := by simp [hc, hf, hv, Except.isOk, Except.toBool]
            invalid := fun h => absurd hp h
            notFound := fun _ h => by simp [hf] at h
            conflict := fun _ _ _ _ => ⟨outdated, hc⟩
            answers := fun o' t' h => by simp [hc] at h
            stores := fun o' t' h => by simp [hc] at h }
  · obtain ⟨cause, hc⟩ := update_of_not_placeable (t := t) (r := r) hp p
    exact
      { succeeds := by simp [hc, hp, Except.isOk, Except.toBool]
        invalid := fun _ => ⟨cause, hc⟩
        notFound := fun h => absurd h hp
        conflict := fun h => absurd h hp
        answers := fun o' t' h => by simp [hc] at h
        stores := fun o' t' h => by simp [hc] at h }

theorem deletesAsMap (name : String) (p : DeleteParams) : DeletesAsMap t r ns name p := by
  cases hf : t.find? r ⟨ns, name⟩ with
  | none =>
    have hc := delete_of_free hf p
    exact
      { succeeds := by simp [hc, hf, Except.isOk, Except.toBool]
        notFound := fun _ => hc
        conflict := fun stored h => by simp [hf] at h
        removes := fun o' t' h => by simp [hc] at h }
  | some stored =>
    by_cases hmeets : ∀ c, p.preconditions = some c → Meets stored c
    · have hc := delete_of_meets hf hmeets
      refine
        { succeeds := ?_
          notFound := fun h => by simp [hf] at h
          conflict := fun old h c hpre hne => ?_
          removes := ?_ }
      · rw [hc]
        cases p.dryRun <;> simpa [hf, Except.isOk, Except.toBool] using hmeets
      · rw [hf] at h
        cases h
        exact absurd (hmeets c hpre) hne
      · intro o' t' h hd
        rw [hc, hd] at h
        cases h
        exact ⟨hf, replaces_of_commit t _⟩
    · push Not at hmeets
      obtain ⟨c, hpre, hne⟩ := hmeets
      obtain ⟨cause, hc⟩ := delete_of_not_meets hf hpre hne
      exact
        { succeeds := by simpa [hc, hf, Except.isOk, Except.toBool] using ⟨c, hpre, hne⟩
          notFound := fun h => by simp [hf] at h
          conflict := fun old h _ _ _ => ⟨cause, by rw [hf] at h; cases h; exact hc⟩
          removes := fun o' t' h => by simp [hc] at h }

end

/-- **A tracker is a keyed map.** Whatever it holds, each write does what it does on
a plain map from collections and keys to objects: it succeeds just if its checks
hold, fails for the first that does not, answers with its object at its key and a
version, or with the deleted one, and if it is not only tried, it changes what is at
its own key alone. -/
theorem refines_keyed_map (t : Tracker) (r : GroupVersionResource) (ns : String) :
    (∀ o p, CreatesAsMap t r ns o p) ∧
    (∀ o p, UpdatesAsMap t r ns o p) ∧
    (∀ name p, DeletesAsMap t r ns name p) :=
  ⟨createsAsMap t r ns, updatesAsMap t r ns, deletesAsMap t r ns⟩

end Tracker
end ClusterKit
