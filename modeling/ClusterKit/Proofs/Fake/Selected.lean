/-
# Selected objects

A selected list has the objects that a selector selects, while a selected watch
tells of an object if the selector selects it as it is told of. So a watch does
not tell of an object that is replaced by one that is not selected, which the
list has no more: such an object is left over with those who follow the watch,
until a selected one is stored at its key again.

Key definitions: `Kind.selected?`, `Tracker.leftAfter`, `Cache.Exceeds`, `Tracker.Agrees`.
Key theorems: `FakeApi.run_list`, `Cache.Exceeds.eq_iff`, `Cache.Exceeds.relist`,
`Tracker.Agrees.after`.
-/
import ClusterKit.Proofs.Fake.Typed

namespace ClusterKit

variable {α : Type}

/-- The object that an erased one stands for, if the selector selects it. -/
def Kind.selected? (K : Kind α) (sel : Selector) (o : Erased) : Option α :=
  if sel.selects o.metadata.labelTable then K.restored? o else none

theorem Kind.selected?_eq_some {K : Kind α} {sel : Selector} {o : Erased} {a : α} :
    K.selected? sel o = some a ↔ sel.selects o.metadata.labelTable ∧ K.restore o = .ok a := by
  unfold selected? restored?
  by_cases hs : sel.selects o.metadata.labelTable = true
  · rw [if_pos hs]
    cases K.restore o <;> simp [Except.toOption, hs]
  · simp [hs]

namespace Tracker

section

variable (sel : Selector) (r : GroupVersionResource) (ns : String)

/-- A selected list of the namespace has the object at the key. -/
def Lists (t : Tracker) (k : ObjectKey) : Prop :=
  Subscription.covers ns k.ns = true ∧
    ∃ o, t.find? r k = some o ∧ sel.selects o.metadata.labelTable = true

/-- The keys at which a listed object has been replaced by one that is not, and no
listed one has been stored since: those after a step from `t` to `t'`, if there were
those of `left` before. -/
def leftAfter (t t' : Tracker) (left : ObjectKey → Prop) (k : ObjectKey) : Prop :=
  ¬ t'.Lists sel r ns k ∧ (left k ∨ (t.Lists sel r ns k ∧ (t'.find? r k).isSome = true))

end

variable {K : Kind α} {sel : Selector} {r : ApiResource} {ns : String} {t : Tracker}

theorem Tame.reads (h : t.Tame K r) (hK : K.Faithful) :
    t.Reads K (K.selected? sel) r.gvr := by
  intro k o a ho ha
  obtain ⟨a', ha', hm⟩ := h.restore hK ho
  rw [(Kind.selected?_eq_some.mp ha).2, Except.ok.injEq] at ha'
  subst ha'
  rw [← (h.placed _ _ _ ho).refOf]
  exact congrArg ObjectRef.ofMeta hm

/-- All that is selected is restored. -/
theorem Tame.isSome_listed? (h : t.Tame K r) (hK : K.Faithful) (k : ObjectKey) :
    (t.listed? (K.selected? sel) r.gvr ns k).isSome = true ↔ t.Lists sel r.gvr ns k := by
  rw [Option.isSome_iff_exists]
  constructor
  · rintro ⟨a, ha⟩
    obtain ⟨hcov, o, ho, hs⟩ := listed?_eq_some.mp ha
    exact ⟨hcov, o, ho, (Kind.selected?_eq_some.mp hs).1⟩
  · rintro ⟨hcov, o, ho, hs⟩
    obtain ⟨a, ha, -⟩ := h.restore hK ho
    exact ⟨a, listed?_eq_some.mpr ⟨hcov, o, ho, Kind.selected?_eq_some.mpr ⟨hs, ha⟩⟩⟩

theorem Tame.listed?_eq_none (h : t.Tame K r) (hK : K.Faithful) {k : ObjectKey} :
    t.listed? (K.selected? sel) r.gvr ns k = none ↔ ¬ t.Lists sel r.gvr ns k := by
  rw [← h.isSome_listed? hK, Bool.not_eq_true, Option.isSome_eq_false_iff,
    Option.isNone_iff_eq_none]

/-- Where everything is selected, nothing is left over. -/
theorem leftAfter_everything (r : GroupVersionResource) (ns : String) (t t' : Tracker) :
    leftAfter .everything r ns t t' (fun _ => False) = fun _ => False := by
  funext k
  apply propext
  constructor
  · rintro ⟨hnot, h | ⟨⟨hcov, -⟩, hstored⟩⟩
    · exact h
    · obtain ⟨o, ho⟩ := Option.isSome_iff_exists.mp hstored
      exact hnot ⟨hcov, o, ho, rfl⟩
  · exact False.elim

end Tracker

/-! ### Selected lists -/

/-- If all selected objects can be restored, then all together. -/
theorem mapM_restore {K : Kind α} {sel : Selector} {os : List Erased}
    (h : ∀ o ∈ os, ∃ a, K.restore o = .ok a) :
    (os.filter fun o => sel.selects o.metadata.labelTable).mapM K.restore =
      .ok (os.filterMap (K.selected? sel)) := by
  induction os with
  | nil => rfl
  | cons o os ih =>
    obtain ⟨a, ha⟩ := h o List.mem_cons_self
    have hrest := ih fun o ho => h o (List.mem_cons_of_mem _ ho)
    by_cases hs : sel.selects o.metadata.labelTable = true
    · have hsome : K.selected? sel o = some a := Kind.selected?_eq_some.mpr ⟨hs, ha⟩
      rw [List.filterMap_cons, hsome, List.filter_cons, if_pos hs, List.mapM_cons, ha, hrest]
      rfl
    · have hnone : K.selected? sel o = none := by
        unfold Kind.selected?
        rw [if_neg hs]
      rw [List.filterMap_cons, hnone, List.filter_cons, if_neg hs, hrest]

namespace FakeApi

variable (K : Kind α) (api : FakeApi) (ns : String) {p : ListParams} {sel : Selector}
  {c : Clientset}

theorem selector_eq (r : GroupVersionResource)
    (hp : Selector.parseOptional p.labelSelector = .ok sel) : Tracker.selector r p = .ok sel := by
  unfold Tracker.selector
  rw [hp]

/-- If all objects of a list can be restored, it is answered by those that are selected. -/
theorem run_list (hc : c.IsDefault) (hp : Selector.parseOptional p.labelSelector = .ok sel)
    (h : ∀ o ∈ (c.tracker.list api.resource.gvr ns).items, ∃ a, K.restore o = .ok a) :
    ((api.calls K).list ns p).run c =
      (.ok ⟨(c.tracker.list api.resource.gvr ns).metadata,
        (c.tracker.list api.resource.gvr ns).items.filterMap (K.selected? sel)⟩,
      { c with journal := c.journal ++ [api.action ns (.list p)] }) := by
  set l := c.tracker.list api.resource.gvr ns with hl
  have hreact : c.tracker.react (api.action ns (.list p)) =
      (some (.ok (.list (Tracker.select sel l))), c.tracker) := by
    unfold Tracker.react
    dsimp only [action]
    rw [selector_eq _ hp]
  have hinvoke := Clientset.invoke_eq hc (api.action ns (.list p))
  rw [hreact] at hinvoke
  have htyped : typedList K (.list (Tracker.select sel l)) =
      .ok ⟨l.metadata, l.items.filterMap (K.selected? sel)⟩ := by
    unfold typedList
    dsimp only
    rw [show (Tracker.select sel l).items.mapM K.restore = _ from mapM_restore h]
    rfl
  refine (run_invoke _ _ c).trans ?_
  rw [hinvoke]
  show (typedList K (.list (Tracker.select sel l)), _) = _
  rw [htyped]

end FakeApi

/-! ### Caches with leftovers -/

/-- The cache has all that `listed` has, and beyond that something at the references of
the `left` keys and nowhere else. -/
structure Cache.Exceeds (s listed : Cache α) (left : ObjectKey → Prop) : Prop where
  current : ∀ x a, listed.entries.get? x = some a → s.entries.get? x = some a
  leftover : ∀ x, listed.entries.get? x = none →
    ((s.entries.get? x).isSome = true ↔ ∃ k, left k ∧ k.ref = x)
  unlisted : ∀ k, left k → listed.entries.get? k.ref = none

namespace Cache.Exceeds

variable {s listed : Cache α} {left : ObjectKey → Prop}

theorem refl (s : Cache α) : s.Exceeds s (fun _ => False) := by
  refine ⟨fun _ _ h => h, ?_, nofun⟩
  intro x hx
  rw [hx]
  simp

theorem get?_eq_none (h : s.Exceeds listed left) {x : ObjectRef}
    (hx : listed.entries.get? x = none) (hleft : ∀ k, left k → k.ref ≠ x) :
    s.entries.get? x = none := by
  have hnot := mt (h.leftover x hx).mp fun ⟨k, hk, hkx⟩ => hleft k hk hkx
  rwa [Bool.not_eq_true, Option.isSome_eq_false_iff, Option.isNone_iff_eq_none] at hnot

theorem isSome_get?_key (h : s.Exceeds listed left) {k : ObjectKey}
    (hk : listed.entries.get? k.ref = none) : (s.entries.get? k.ref).isSome = true ↔ left k := by
  rw [h.leftover _ hk]
  constructor
  · rintro ⟨k', hk', href⟩
    exact ObjectKey.ref_injective href ▸ hk'
  · exact fun hk => ⟨k, hk, rfl⟩

/-- A cache is the one that it exceeds just if nothing is left over. -/
theorem eq_iff (h : s.Exceeds listed left) : s = listed ↔ ∀ k, ¬ left k := by
  constructor
  · rintro rfl k hk
    have hnone := h.unlisted k hk
    have hsome := (h.isSome_get?_key hnone).mpr hk
    rw [hnone] at hsome
    cases hsome
  · intro hleft
    apply Cache.ext_get?
    intro x
    cases hl : listed.entries.get? x with
    | some a => exact h.current x a hl
    | none => exact h.get?_eq_none hl fun k hk => absurd hk (hleft k)

/-- What leads beyond a list leads beyond it from the list itself, and of what is left over
only that is left which it is about. -/
theorem relist {K : Kind α} {cs : List (Change α)} (h : (Cache.replay K cs s).Exceeds listed left) :
    (Cache.replay K cs listed).Exceeds listed
      (fun k => left k ∧ ∃ c ∈ cs, Cache.refOf K c.object = k.ref) := by
  refine ⟨?_, ?_, fun k hk => h.unlisted k hk.1⟩
  · intro x a ha
    by_cases hmem : ∃ c ∈ cs, Cache.refOf K c.object = x
    · rw [Cache.get?_replay_of_mem K hmem _ s]
      exact h.current x a ha
    · rw [Cache.get?_replay_of_not_mem K hmem, ha]
  · intro x hx
    by_cases hmem : ∃ c ∈ cs, Cache.refOf K c.object = x
    · rw [Cache.get?_replay_of_mem K hmem _ s, h.leftover x hx]
      constructor
      · rintro ⟨k, hk, rfl⟩
        exact ⟨k, ⟨hk, hmem⟩, rfl⟩
      · rintro ⟨k, ⟨hk, -⟩, hkx⟩
        exact ⟨k, hk, hkx⟩
    · rw [Cache.get?_replay_of_not_mem K hmem, hx]
      constructor
      · rintro ⟨⟩
      · rintro ⟨k, ⟨-, hk⟩, rfl⟩
        exact absurd hk hmem

/-- For a cache with nothing but at the references of keys it is enough to look there. -/
theorem of_keys (hother : ∀ x, (∀ k : ObjectKey, k.ref ≠ x) →
      s.entries.get? x = none ∧ listed.entries.get? x = none)
    (hcurrent : ∀ (k : ObjectKey) a, listed.entries.get? k.ref = some a →
      s.entries.get? k.ref = some a)
    (hleftover : ∀ k : ObjectKey, listed.entries.get? k.ref = none →
      ((s.entries.get? k.ref).isSome = true ↔ left k))
    (hunlisted : ∀ k, left k → listed.entries.get? k.ref = none) : s.Exceeds listed left := by
  have hcases : ∀ x, (∃ k : ObjectKey, k.ref = x) ∨ ∀ k : ObjectKey, k.ref ≠ x := by
    intro x
    rw [← not_exists]
    exact em _
  refine ⟨?_, ?_, hunlisted⟩
  · intro x a ha
    rcases hcases x with ⟨k, rfl⟩ | hne
    · exact hcurrent k a ha
    · rw [(hother x hne).2] at ha
      cases ha
  · intro x hx
    rcases hcases x with ⟨k, rfl⟩ | hne
    · rw [hleftover k hx]
      constructor
      · exact fun hk => ⟨k, hk, rfl⟩
      · rintro ⟨k', hk', href⟩
        exact ObjectKey.ref_injective href ▸ hk'
    · rw [(hother x hne).1]
      constructor
      · rintro ⟨⟩
      · rintro ⟨k, -, hk⟩
        exact absurd hk (hne k)

end Cache.Exceeds

namespace Tracker

/-- The cache has what a selected list has, but for what is left over. -/
def Agrees (K : Kind α) (sel : Selector) (r : GroupVersionResource) (ns : String) (t : Tracker)
    (left : ObjectKey → Prop) (s : Cache α) : Prop :=
  s.Exceeds (t.cacheOf K (K.selected? sel) r ns) left

variable {K : Kind α} {sel : Selector} {r : ApiResource} {ns : String} {left : ObjectKey → Prop}
  {s : Cache α}

theorem Agrees.of_objects {r : GroupVersionResource} {t t' : Tracker}
    (h : t.Agrees K sel r ns left s) (ho : t'.objects = t.objects) :
    t'.Agrees K sel r ns left s := by
  unfold Agrees
  rw [cacheOf_congr ho]
  exact h

/-- A call leads from one list to the next as far as those who follow are told of it; one
more key is left over if it takes out an object that was listed. -/
theorem Agrees.after {e : Entry} (hK : K.Faithful) (hb : e.before.Tame K r)
    (ha : e.after.Tame K r) (h : e.before.Agrees K sel r.gvr ns left s) :
    e.after.Agrees K sel r.gvr ns (leftAfter sel r.gvr ns e.before e.after left)
      (Cache.replay K (e.told? (K.selected? sel) r.gvr ns).toList s) := by
  have hrb : e.before.Reads K (K.selected? sel) r.gvr := hb.reads hK
  have hra : e.after.Reads K (K.selected? sel) r.gvr := ha.reads hK
  apply Cache.Exceeds.of_keys
  · intro x hne
    refine ⟨?_, get?_cacheOf_of_no_key hra hne⟩
    rw [Entry.get?_replay_told?_of_no_key hrb hra s hne]
    exact h.get?_eq_none (get?_cacheOf_of_no_key hrb hne) fun k _ => hne k
  · intro k a hk
    rw [get?_cacheOf hra] at hk
    rcases Entry.replay_told?_cases hrb hra s k with ⟨hs, hl⟩ | ⟨hs, -⟩ | ⟨-, hl, -⟩
    · rw [hs]
      apply h.current
      rw [get?_cacheOf hrb, ← hl, hk]
    · rw [hs, hk]
    · rw [hl] at hk
      cases hk
  · intro k hnone
    rw [get?_cacheOf hra] at hnone
    have hunlisted := (ha.listed?_eq_none hK).mp hnone
    rcases Entry.replay_told?_cases hrb hra s k with
      ⟨hs, hl⟩ | ⟨hs, hgone⟩ | ⟨hs, -, hold, hstored⟩
    · have hbefore := hl.symm.trans hnone
      rw [hs, h.isSome_get?_key ((get?_cacheOf hrb k).trans hbefore)]
      have hwas := (hb.listed?_eq_none hK).mp hbefore
      exact ⟨fun hk => ⟨hunlisted, .inl hk⟩, fun hk => hk.2.resolve_right fun hn => hwas hn.1⟩
    · obtain ⟨hold, hremoved⟩ := hgone hnone
      rw [hs, hnone]
      refine ⟨nofun, ?_⟩
      rintro ⟨-, hk | ⟨-, hstored⟩⟩
      · have hunheld := h.unlisted k hk
        rw [get?_cacheOf hrb] at hunheld
        rw [hunheld] at hold
        cases hold
      · rw [hremoved] at hstored
        cases hstored
    · obtain ⟨a, hlisted⟩ := Option.isSome_iff_exists.mp hold
      rw [hs, h.current _ a ((get?_cacheOf hrb k).trans hlisted)]
      exact ⟨fun _ => ⟨hunlisted, .inr ⟨(hb.isSome_listed? hK k).mp hold, hstored⟩⟩, fun _ => rfl⟩
  · rintro k ⟨hunlisted, -⟩
    rw [get?_cacheOf hra]
    exact (ha.listed?_eq_none hK).mpr hunlisted

end Tracker
end ClusterKit
