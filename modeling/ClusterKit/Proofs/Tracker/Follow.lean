/-
# Following a list

A list can be followed by the changes alone: from the cache of a list they
lead to the cache of the next one, one change a step (`Entry.cacheOf_after`).
Since of the changes to an object the last decides, they may as well be
replayed on top of a list that already has some of them. This is shown for
what stored objects stand for, of whatever type.

Key definitions: `Tracker.cacheOf`, `Tracker.Reads`.
Key theorems: `Tracker.replay_cacheOf`, `Tracker.exact_fanout_and_replay`.
-/
import ClusterKit.Proofs.Cache.Replay
import ClusterKit.Proofs.Tracker.Fanout
import ClusterKit.Proofs.Watch.Pending

namespace ClusterKit

/-! ### Changes of what objects stand for -/

namespace Change

theorem through_some : through (some : α → Option α) = some :=
  funext fun c => by cases c <;> rfl

theorem of_through {f : α → Option β} {c : Change α} {d : Change β} (h : c.through f = some d) :
    f c.object = some d.object ∧ d.result? = c.result?.bind f := by
  cases c with
  | added o =>
    obtain ⟨b, hb, rfl⟩ := Option.map_eq_some_iff.mp h
    exact ⟨hb, hb.symm⟩
  | modified o =>
    obtain ⟨b, hb, rfl⟩ := Option.map_eq_some_iff.mp h
    exact ⟨hb, hb.symm⟩
  | deleted o =>
    obtain ⟨b, hb, rfl⟩ := Option.map_eq_some_iff.mp h
    exact ⟨hb, rfl⟩

theorem eq_object_of_result? (c : Change α) {o : α} (h : c.result? = some o) : o = c.object := by
  cases c <;> cases h <;> rfl

theorem through_eq_none {f : α → Option β} {c : Change α} :
    c.through f = none ↔ f c.object = none := by
  cases c <;> exact Option.map_eq_none_iff

end Change

namespace Tracker

/-! ### Lists as caches -/

section

variable (K : Kind α) (f : Erased → Option α) (r : GroupVersionResource) (ns : String)

/-- The cache of a list, of what its objects stand for. -/
def cacheOf (t : Tracker) : Cache α :=
  .replace K ((t.list r ns).items.filterMap f)

/-- What an object of a collection stands for goes by the reference of its key. -/
def Reads (t : Tracker) : Prop :=
  ∀ k o a, t.find? r k = some o → f o = some a → Cache.refOf K a = k.ref

/-- What a list has of the object at a key. -/
def listed? (t : Tracker) (k : ObjectKey) : Option α :=
  if Subscription.covers ns k.ns then (t.find? r k).bind f else none

variable {K f r ns}

theorem Placed.reads {t : Tracker} (h : t.Placed) : t.Reads Erased.asKind some r := by
  rintro k o a ho ⟨⟩
  exact (h r _ o ho).refOf

/-- The cache of a list depends on the objects only. -/
theorem cacheOf_congr {s t : Tracker} (h : s.objects = t.objects) :
    s.cacheOf K f r ns = t.cacheOf K f r ns := by
  unfold cacheOf list collection
  rw [h]

theorem listed?_congr {s t : Tracker} {k : ObjectKey} (h : s.find? r k = t.find? r k) :
    s.listed? f r ns k = t.listed? f r ns k := by
  unfold listed?
  rw [h]

theorem listed?_eq_some {t : Tracker} {k : ObjectKey} {a : α} :
    t.listed? f r ns k = some a ↔
      Subscription.covers ns k.ns ∧ ∃ o, t.find? r k = some o ∧ f o = some a := by
  unfold listed?
  by_cases hc : Subscription.covers ns k.ns = true
  · rw [if_pos hc, Option.bind_eq_some_iff]
    simp [hc]
  · simp [hc]

theorem get?_cacheOf_eq_some {t : Tracker} (h : t.Reads K f r) {x : ObjectRef} {a : α} :
    (t.cacheOf K f r ns).entries.get? x = some a ↔
      ∃ k : ObjectKey, k.ref = x ∧ t.listed? f r ns k = some a := by
  have hmem : ∀ b, b ∈ (t.list r ns).items.filterMap f ↔
      ∃ k, t.listed? f r ns k = some b := by
    intro b
    simp only [List.mem_filterMap, mem_list_items, listed?_eq_some]
    constructor
    · rintro ⟨o, ⟨k, hk, hc⟩, hb⟩
      exact ⟨k, hc, o, hk, hb⟩
    · rintro ⟨k, hc, o, hk, hb⟩
      exact ⟨o, ⟨k, hk, hc⟩, hb⟩
  have href : ∀ k b, t.listed? f r ns k = some b → Cache.refOf K b = k.ref := by
    intro k b hb
    obtain ⟨-, o, hk, ho⟩ := listed?_eq_some.mp hb
    exact h k o b hk ho
  unfold cacheOf
  rw [Cache.get?_replace]
  · rw [hmem]
    constructor
    · rintro ⟨⟨k, hb⟩, hx⟩
      exact ⟨k, (href k a hb).symm.trans hx, hb⟩
    · rintro ⟨k, hx, hb⟩
      exact ⟨⟨k, hb⟩, (href k a hb).trans hx⟩
  · intro b hb c hc hbc
    obtain ⟨k, hk⟩ := (hmem b).mp hb
    obtain ⟨k', hk'⟩ := (hmem c).mp hc
    rw [href k b hk, href k' c hk'] at hbc
    rw [← ObjectKey.ref_injective hbc, hk, Option.some.injEq] at hk'
    exact hk'

/-- A list finds at the reference of a key what it has of the object at the key. -/
theorem get?_cacheOf {t : Tracker} (h : t.Reads K f r) (k : ObjectKey) :
    (t.cacheOf K f r ns).entries.get? k.ref = t.listed? f r ns k := by
  apply Option.ext
  intro a
  rw [get?_cacheOf_eq_some h]
  constructor
  · rintro ⟨k', hx, hk⟩
    rw [← ObjectKey.ref_injective hx]
    exact hk
  · exact fun hk => ⟨k, rfl, hk⟩

theorem get?_cacheOf_of_no_key {t : Tracker} (h : t.Reads K f r) {x : ObjectRef}
    (hx : ∀ k : ObjectKey, k.ref ≠ x) : (t.cacheOf K f r ns).entries.get? x = none := by
  rw [Option.eq_none_iff_forall_ne_some]
  intro a ha
  obtain ⟨k, hk, -⟩ := (get?_cacheOf_eq_some h).mp ha
  exact hx k hk

/-- A cache is that of a list if it finds the same at the references of keys, and
nothing at others. -/
theorem eq_cacheOf {t : Tracker} (h : t.Reads K f r) {s : Cache α}
    (hkey : ∀ k : ObjectKey, s.entries.get? k.ref = t.listed? f r ns k)
    (hother : ∀ x, (∀ k : ObjectKey, k.ref ≠ x) → s.entries.get? x = none) :
    s = t.cacheOf K f r ns := by
  apply Cache.ext_get?
  intro x
  by_cases hx : ∃ k : ObjectKey, k.ref = x
  · obtain ⟨k, rfl⟩ := hx
    rw [hkey, get?_cacheOf h]
  · have hne : ∀ k : ObjectKey, k.ref ≠ x := fun k hk => hx ⟨k, hk⟩
    rw [hother x hne, get?_cacheOf_of_no_key h hne]

namespace Entry

/-- The change that the call makes for those who follow a list. -/
def told? (f : Erased → Option α) (r : GroupVersionResource) (ns : String) (e : Entry) :
    Option (Change α) :=
  (e.change? r ns).bind (Change.through f)

theorem told?_eq_some {e : Entry} {d : Change α} (h : e.told? f r ns = some d) :
    ∃ m, e.Makes m ∧ m.resource = r ∧ Subscription.covers ns m.key.ns ∧
      f m.change.object = some d.object ∧ d.result? = m.change.result?.bind f := by
  obtain ⟨c, hc, hd⟩ := Option.bind_eq_some_iff.mp h
  rcases e.quiet_or_makes with hq | ⟨m, hm⟩
  · rw [hq.change?] at hc
    cases hc
  · rw [hm.change?] at hc
    split at hc
    · rename_i hw
      obtain rfl := Option.some.inj hc
      obtain ⟨hobject, hresult⟩ := Change.of_through hd
      exact ⟨m, hm, hw.1, hw.2, hobject, hresult⟩
    · cases hc

theorem refOf_of_told? {e : Entry} (hb : e.before.Reads K f r) (ha : e.after.Reads K f r)
    {m : Mutation} (hm : e.Makes m) (hr : m.resource = r) {a : α}
    (hf : f m.change.object = some a) : Cache.refOf K a = m.key.ref := by
  subst hr
  rcases hm.find?_object with hfound | hfound
  · exact ha _ _ _ hfound hf
  · exact hb _ _ _ hfound hf

/-- Those who follow a list are told of stored objects only. -/
theorem get?_replay_told?_of_no_key {e : Entry} (hb : e.before.Reads K f r)
    (ha : e.after.Reads K f r) (s : Cache α) {x : ObjectRef} (hx : ∀ k : ObjectKey, k.ref ≠ x) :
    (Cache.replay K (e.told? f r ns).toList s).entries.get? x = s.entries.get? x := by
  cases hd : e.told? f r ns with
  | none => rfl
  | some d =>
    obtain ⟨m, hm, hr, -, hf, -⟩ := told?_eq_some hd
    have href := refOf_of_told? hb ha hm hr hf
    rw [Option.toList_some, Cache.replay_cons, Cache.replay_nil, Cache.get?_apply, href,
      if_neg (hx m.key).symm]

theorem Makes.told? {e : Entry} {m : Mutation} (hm : e.Makes m)
    (hcov : Subscription.covers ns m.key.ns = true) :
    e.told? f m.resource ns = m.change.through f := by
  unfold Entry.told?
  rw [hm.change?, if_pos ⟨rfl, hcov⟩, Option.bind_some]

theorem Makes.listed?_after {e : Entry} {m : Mutation} (hm : e.Makes m)
    (hcov : Subscription.covers ns m.key.ns = true) :
    e.after.listed? f m.resource ns m.key = m.change.result?.bind f := by
  unfold listed?
  rw [if_pos hcov, hm.find?_after]

/-- What is removed was listed if it stands for something. -/
theorem Makes.listed?_before {e : Entry} {m : Mutation} (hm : e.Makes m)
    (hcov : Subscription.covers ns m.key.ns = true) (hres : m.change.result? = none) :
    e.before.listed? f m.resource ns m.key = f m.change.object := by
  unfold listed?
  rcases hm.find?_object with hfound | hfound
  · rw [hm.find?_after, hres] at hfound
    cases hfound
  · rw [if_pos hcov, hfound, Option.bind_some]

/-- Nobody is told of an object that does not stand for anything, and it is not listed. -/
theorem Makes.unlisted {e : Entry} {m : Mutation} (hm : e.Makes m)
    (hcov : Subscription.covers ns m.key.ns = true) (hf : f m.change.object = none) :
    e.told? f m.resource ns = none ∧ e.after.listed? f m.resource ns m.key = none ∧
      ((e.before.listed? f m.resource ns m.key).isSome →
        (e.after.find? m.resource m.key).isSome) := by
  rw [hm.told? hcov, hm.listed?_after hcov, hm.find?_after]
  refine ⟨Change.through_eq_none.mpr hf, ?_, ?_⟩
  · cases hres : m.change.result? with
    | none => rfl
    | some o => rw [Option.bind_some, m.change.eq_object_of_result? hres, hf]
  · intro hold
    cases hres : m.change.result? with
    | some o => rfl
    | none =>
      rw [hm.listed?_before hcov hres, hf] at hold
      cases hold

/-- All that becomes of an object that stands for something is told. -/
theorem Makes.listed {e : Entry} {m : Mutation} (hm : e.Makes m)
    (hb : e.before.Reads K f m.resource) (ha : e.after.Reads K f m.resource)
    (hcov : Subscription.covers ns m.key.ns = true) (hf : (f m.change.object).isSome)
    (s : Cache α) :
    (Cache.replay K (e.told? f m.resource ns).toList s).entries.get? m.key.ref =
        e.after.listed? f m.resource ns m.key ∧
      (e.after.listed? f m.resource ns m.key = none →
        (e.before.listed? f m.resource ns m.key).isSome ∧
          e.after.find? m.resource m.key = none) := by
  rw [hm.told? hcov, hm.listed?_after hcov, hm.find?_after]
  constructor
  · cases hd : m.change.through f with
    | none =>
      rw [Change.through_eq_none.mp hd] at hf
      cases hf
    | some d =>
      obtain ⟨hobject, hresult⟩ := Change.of_through hd
      have href := refOf_of_told? hb ha hm rfl hobject
      rw [Option.toList_some, Cache.replay_cons, Cache.replay_nil, Cache.get?_apply, href,
        if_pos rfl, hresult]
  · intro hnone
    cases hres : m.change.result? with
    | none =>
      rw [hm.listed?_before hcov hres]
      exact ⟨hf, rfl⟩
    | some o =>
      rw [hres, Option.bind_some, m.change.eq_object_of_result? hres] at hnone
      rw [hnone] at hf
      cases hf

/-- Elsewhere nothing happens, and nothing is told. -/
theorem untouched {e : Entry} (hb : e.before.Reads K f r) (ha : e.after.Reads K f r)
    {k : ObjectKey}
    (hk : ∀ m, e.Makes m → m.resource = r → Subscription.covers ns k.ns = true → k ≠ m.key)
    (s : Cache α) :
    (Cache.replay K (e.told? f r ns).toList s).entries.get? k.ref = s.entries.get? k.ref ∧
      e.after.listed? f r ns k = e.before.listed? f r ns k := by
  constructor
  · cases hd : e.told? f r ns with
    | none => rfl
    | some d =>
      obtain ⟨m, hm, hr, hcov, hf, -⟩ := told?_eq_some hd
      have hne : k.ref ≠ m.key.ref := by
        intro href
        obtain rfl := ObjectKey.ref_injective href
        exact hk m hm hr hcov rfl
      rw [Option.toList_some, Cache.replay_cons, Cache.replay_nil, Cache.get?_apply,
        refOf_of_told? hb ha hm hr hf, if_neg hne]
  · by_cases hcov : Subscription.covers ns k.ns = true
    · apply listed?_congr
      apply find?_after_of_not_touches
      intro ht
      obtain ⟨c, hm⟩ := ht.makes
      exact hk _ hm rfl hcov rfl
    · unfold listed?
      rw [if_neg hcov, if_neg hcov]

/-- What a call does to a list at a key, and what it tells those who follow the list:
nothing; or all that has become of the object; or nothing although a listed object
has been replaced by one that is not. -/
theorem replay_told?_cases {e : Entry} (hb : e.before.Reads K f r) (ha : e.after.Reads K f r)
    (s : Cache α) (k : ObjectKey) :
    let s' := Cache.replay K (e.told? f r ns).toList s
    (s'.entries.get? k.ref = s.entries.get? k.ref ∧
      e.after.listed? f r ns k = e.before.listed? f r ns k) ∨
    (s'.entries.get? k.ref = e.after.listed? f r ns k ∧
      (e.after.listed? f r ns k = none →
        (e.before.listed? f r ns k).isSome ∧ e.after.find? r k = none)) ∨
    (s'.entries.get? k.ref = s.entries.get? k.ref ∧ e.after.listed? f r ns k = none ∧
      (e.before.listed? f r ns k).isSome ∧ (e.after.find? r k).isSome) := by
  intro s'
  by_cases htouched : ∃ m, e.Makes m ∧ m.resource = r ∧ Subscription.covers ns k.ns ∧ k = m.key
  · obtain ⟨m, hm, rfl, hcov, rfl⟩ := htouched
    by_cases hf : (f m.change.object).isSome = true
    · exact .inr (.inl (hm.listed hb ha hcov hf s))
    · rw [Bool.not_eq_true, Option.isSome_eq_false_iff, Option.isNone_iff_eq_none] at hf
      obtain ⟨htold, hnone, hstored⟩ := hm.unlisted hcov hf
      have hsame : s' = s := by
        show Cache.replay K (e.told? f m.resource ns).toList s = s
        rw [htold]
        rfl
      by_cases hold : (e.before.listed? f m.resource ns m.key).isSome = true
      · exact .inr (.inr ⟨by rw [hsame], hnone, hold, hstored hold⟩)
      · rw [Bool.not_eq_true, Option.isSome_eq_false_iff, Option.isNone_iff_eq_none] at hold
        exact .inl ⟨by rw [hsame], hnone.trans hold.symm⟩
  · left
    apply untouched hb ha
    intro m hm hr hcov hk
    exact htouched ⟨m, hm, hr, hcov, hk⟩

/-- The step of a list: the change that a call makes leads from the cache of one list
to that of the next, unless it takes an object out of what is listed. -/
theorem cacheOf_after {e : Entry} (hb : e.before.Reads K f r) (ha : e.after.Reads K f r)
    (hkeep : ∀ k o, e.after.find? r k = some o → (f o).isSome) :
    e.after.cacheOf K f r ns =
      Cache.replay K (e.told? f r ns).toList (e.before.cacheOf K f r ns) := by
  symm
  apply eq_cacheOf ha
  · intro k
    rcases replay_told?_cases hb ha (e.before.cacheOf K f r ns) k with
      ⟨hs, hl⟩ | ⟨hs, -⟩ | ⟨hs, hl, hbefore, hstored⟩
    · rw [hs, hl, get?_cacheOf hb]
    · exact hs
    · obtain ⟨o, ho⟩ := Option.isSome_iff_exists.mp hstored
      obtain ⟨a, ha⟩ := Option.isSome_iff_exists.mp hbefore
      have hcov := (listed?_eq_some.mp ha).1
      unfold listed? at hl
      rw [if_pos hcov, ho, Option.bind_some] at hl
      have hsome := hkeep k o ho
      rw [hl] at hsome
      cases hsome
  · intro x hx
    rw [get?_replay_told?_of_no_key hb ha _ hx, get?_cacheOf_of_no_key hb hx]

end Entry

/-- The changes of a run lead from the cache of a list to that of the list behind the run. -/
theorem replay_cacheOf {t : Tracker} {cs : List Call}
    (h : ∀ ds, ds <+: cs → (t.run ds).Reads K f r)
    (hkeep : ∀ ds, ds <+: cs → ∀ k o, (t.run ds).find? r k = some o → (f o).isSome) :
    (t.run cs).cacheOf K f r ns =
      Cache.replay K ((t.changes r ns cs).filterMap (Change.through f)) (t.cacheOf K f r ns) := by
  induction cs using List.reverseRecOn with
  | nil => rfl
  | append_singleton cs c ih =>
    have hb : (t.run cs).Reads K f r := h cs (List.prefix_append _ _)
    have ha : (t.run (cs ++ [c])).Reads K f r := h _ (List.prefix_refl _)
    have hk := hkeep _ (List.prefix_refl _)
    rw [run_append] at ha hk ⊢
    have hstep : (Entry.mk (t.run cs) c).after.cacheOf K f r ns = _ :=
      Entry.cacheOf_after hb ha hk
    rw [ih (fun ds hds => h ds (hds.trans (List.prefix_append _ _)))
      (fun ds hds => hkeep ds (hds.trans (List.prefix_append _ _)))] at hstep
    refine hstep.trans ?_
    rw [changes_append, List.filterMap_append, Cache.replay_append]
    congr 1
    unfold changes Entry.told?
    rw [history_cons, List.filterMap_cons, history_nil]
    cases (Entry.mk (t.run cs) c).change? r ns with
    | none => rfl
    | some d =>
      simp only [Option.bind_some, List.filterMap_cons, List.filterMap_nil]
      cases d.through f <;> rfl

end

/-! ### Subscriptions and lists -/

/-- What a run leads to from the cache of a list may be replayed on top of any list
that was made on the way. -/
theorem replay_on_list {t : Tracker} (h : t.Placed) (cs ds : List Call)
    (r : GroupVersionResource) (ns : String) :
    Cache.replay Erased.asKind (t.changes r ns (cs ++ ds))
      ((t.run cs).cacheOf Erased.asKind some r ns) =
        (t.run (cs ++ ds)).cacheOf Erased.asKind some r ns := by
  have hreads : ∀ es, (t.run es).Reads Erased.asKind some r := fun es => (placed_run h es).reads
  have hthrough : ∀ es, (t.changes r ns es).filterMap (Change.through some) = t.changes r ns es :=
    fun es => by rw [Change.through_some, List.filterMap_some]
  have hkeep : ∀ es, ∀ k o, (t.run es).find? r k = some o → (some o).isSome := fun _ _ _ _ => rfl
  rw [replay_cacheOf (fun es _ => hreads es) (fun es _ => hkeep es),
    replay_cacheOf (fun es _ => hreads es) (fun es _ => hkeep es), hthrough, hthrough,
    changes_append, Cache.replay_append_replay]

/-- The change that a call makes for a subscription is there just if the call is a
write that takes effect at a key that the subscription covers. -/
theorem Entry.change?_iff {e : Entry} {r : GroupVersionResource} {ns : String}
    {c : Change Erased} : e.change? r ns = some c ↔ ∃ k, e.Touches r k ∧
      Subscription.covers ns k.ns ∧
      Change.between? (e.before.find? r k) (e.after.find? r k) = some c := by
  rcases e.quiet_or_makes with hq | ⟨m, hm⟩
  · rw [hq.change?]
    constructor
    · rintro ⟨⟩
    · rintro ⟨k, ht, -⟩
      have hno := hq.isEffective.symm.trans ht.1
      cases hno
  · rw [hm.change?]
    have hc : Change.between? (e.before.find? m.resource m.key) (e.after.find? m.resource m.key) =
        some m.change := by
      rw [hm.find?_after]
      exact hm.fits.change
    constructor
    · intro h
      split at h
      · rename_i hw
        obtain ⟨rfl, hcov⟩ := hw
        exact ⟨m.key, hm.touches, hcov, hc.trans h⟩
      · cases h
    · rintro ⟨k, ht, hcov, hb⟩
      have hk := hm.touches.2.symm.trans ht.2
      rw [Option.some.injEq, Prod.mk.injEq] at hk
      obtain ⟨rfl, rfl⟩ := hk
      rw [if_pos ⟨rfl, hcov⟩, ← hc, hb]

/-- **Exact fan-out and replay.** Subscribe to a namespace of a collection in any
reachable tracker, and let any run follow that does not end this subscription.
What is delivered is one event for each write that has taken effect at a key of
the namespace, in their order: it tells whether something was there before and
is there now, and carries the object as it was stored or removed. Replayed on
top of a list made anywhere in the run, all of it leads to the list at the end. -/
theorem exact_fanout_and_replay (before after : List Call) (r : GroupVersionResource)
    (ns : String) (hopen : ∀ c ∈ after, c.ends ((empty.run before).watch r ns).1 = false) :
    let id := ((empty.run before).watch r ns).1
    let t := ((empty.run before).watch r ns).2
    t.delivered id after = (t.changes r ns after).map Change.event ∧
    (∀ e ∈ t.history after, ∀ c, e.change? r ns = some c ↔ ∃ k, e.Touches r k ∧
      Subscription.covers ns k.ns ∧
      Change.between? (e.before.find? r k) (e.after.find? r k) = some c) ∧
    (∀ e ∈ t.history after, ∀ k, e.Touches r k → ∃ c, c.object.IsAt k ∧
      Change.between? (e.before.find? r k) (e.after.find? r k) = some c) ∧
    ∀ first second, after = first ++ second →
      Cache.replay Erased.asKind (t.changes r ns after)
        (.replace Erased.asKind ((t.run first).list r ns).items) =
          .replace Erased.asKind ((t.run after).list r ns).items := by
  intro id t
  have hp : t.Placed := placed_run placed_empty before
  refine ⟨?_, ?_, ?_, ?_⟩
  · exact delivered_eq (isSubscribed_watch _ r ns) hp hopen
  · intro e _ c
    exact Entry.change?_iff
  · intro e he k ht
    obtain ⟨h, h', hh⟩ := List.append_of_mem he
    obtain ⟨cs, -, -, -, hb, -⟩ := history_split hh
    obtain ⟨c, hm⟩ := ht.makes
    refine ⟨c, hm.object_isAt (hb ▸ placed_run hp cs), ?_⟩
    rw [show e.after.find? r k = c.result? from hm.find?_after]
    exact hm.fits.change
  · rintro first second rfl
    have hreplay := replay_on_list hp first second r ns
    simpa only [cacheOf, List.filterMap_some] using hreplay

/-- Other subscriptions to the namespace come and go: one whose receiver is dropped is forgotten
in the midst of the next write, one whose receiver is closed when another one comes. The first
is told of both writes in the namespace, and not of the one elsewhere. -/
theorem fanout_beside_forgotten_subscriptions :
    let r : GroupVersionResource := ⟨"", "v1", "configmaps"⟩
    let o : Erased := ⟨none, .named "a", .null⟩
    let before : List Call := [.create r "x" o .none]
    let after : List Call := [.watch r "x", .unsubscribe 1, .update r "x" o .none,
      .watch r "x", .close 2, .watch r "y", .create r "y" o .none, .drain 0,
      .delete r "x" "a" .none]
    let t := ((empty.run before).watch r "x").2
    let held (n : Nat) := (t.run (after.take n)).subscriptions.toList.map Prod.fst
    (∀ c ∈ after, c.ends ((empty.run before).watch r "x").1 = false) ∧
    held 2 = [0, 1] ∧ held 3 = [0] ∧ held 5 = [0, 2] ∧ held 6 = [0, 3] ∧
    t.delivered 0 after = [.modified ((atVersion (some "2") o).within "x"),
      .deleted ((atVersion (some "2") o).within "x")] ∧
    Cache.replay Erased.asKind (t.changes r "x" after)
      (.replace Erased.asKind ((t.run (after.take 3)).list r "x").items) =
        .replace Erased.asKind ((t.run after).list r "x").items := by
  intro r o before after t held
  have hopen : ∀ c ∈ after, c.ends ((empty.run before).watch r "x").1 = false := by decide
  obtain ⟨hd, -, -, hreplay⟩ := exact_fanout_and_replay before after r "x" hopen
  refine ⟨hopen, by decide, by decide, by decide, by decide, hd.trans (by decide),
    hreplay (after.take 3) (after.drop 3) ?_⟩
  exact (List.take_append_drop 3 after).symm

end Tracker
end ClusterKit
