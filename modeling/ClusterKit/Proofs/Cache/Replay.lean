/-
# Replaying changes

A cache is followed by replaying changes one after the other, and of all
changes to one object the last decides. So changes may be replayed again on
top of what they have led to: objects move back on the way, and the end is the
same (`Cache.replay_replay`). This is what lets a watch be opened before the
list is made.

Key definitions: `Cache.replay`, `ObjectKey.ref`.
Key theorems: `Cache.get?_replay_of_mem`, `Cache.replay_replay`, `Cache.get?_replace`,
`Cache.get?_replace_eq_getLast?`.
-/
import ClusterKit.Cache.Store
import ClusterKit.Proofs.Table
import ClusterKit.Proofs.Tracker.Call

namespace ClusterKit

/-- The reference to what is kept at a key. -/
def ObjectKey.ref (k : ObjectKey) : ObjectRef :=
  (ObjectRef.named k.name).within k.ns

theorem ObjectKey.ref_injective {j k : ObjectKey} (h : j.ref = k.ref) : j = k := by
  obtain ⟨jns, jname⟩ := j
  obtain ⟨kns, kname⟩ := k
  simp only [ref, ObjectRef.named, ObjectRef.within, ObjectRef.mk.injEq] at h
  obtain ⟨hns, rfl⟩ := h
  congr
  split at hns <;> split at hns <;> rename_i hj hk
  · rw [String.isEmpty_iff] at hj hk
    rw [hj, hk]
  · cases hns
  · cases hns
  · exact Option.some.inj hns

theorem Erased.IsAt.refOf {o : Erased} {k : ObjectKey} (h : o.IsAt k) :
    Cache.refOf Erased.asKind o = k.ref := by
  have hm : ObjectRef.ofMeta o.metadata =
      ObjectKey.ref ⟨o.metadata.ns.getD "", o.metadata.name.getD ""⟩ := rfl
  rw [← h.key_eq]
  exact hm

namespace Cache

variable (K : Kind α)

/-- Two caches are the same if each reference finds the same in them. -/
theorem ext_get? {s t : Cache α} (h : ∀ x, s.entries.get? x = t.entries.get? x) : s = t := by
  obtain ⟨s⟩ := s
  obtain ⟨t⟩ := t
  exact congrArg _ (Table.ext_get? h)

/-- A change decides on the object that it is about and leaves the others. -/
theorem get?_apply (s : Cache α) (c : Change α) (x : ObjectRef) :
    (s.apply K c).entries.get? x =
      if x = refOf K c.object then c.result? else s.entries.get? x := by
  cases c with
  | added o => exact Table.get?_insert _ _ _ _
  | modified o => exact Table.get?_insert _ _ _ _
  | deleted o => exact Table.get?_erase _ _ _

/-- A list in which no two objects go by the same reference is the view of its cache. -/
theorem get?_replace {objs : List α}
    (h : ∀ a ∈ objs, ∀ b ∈ objs, refOf K a = refOf K b → a = b) (x : ObjectRef) (a : α) :
    (replace K objs).entries.get? x = some a ↔ a ∈ objs ∧ refOf K a = x := by
  unfold replace
  rw [Table.get?_ofList_eq_some_iff]
  · simp only [List.mem_map, Prod.mk.injEq]
    constructor
    · rintro ⟨b, hb, rfl, rfl⟩
      exact ⟨hb, rfl⟩
    · rintro ⟨ha, rfl⟩
      exact ⟨a, ha, rfl, rfl⟩
  · intro p hp q hq hpq
    obtain ⟨a, ha, rfl⟩ := List.mem_map.mp hp
    obtain ⟨b, hb, rfl⟩ := List.mem_map.mp hq
    exact h a ha b hb hpq

/-- Of the objects of a list with one reference the last counts. -/
theorem get?_replace_eq_getLast? (objs : List α) (x : ObjectRef) :
    (replace K objs).entries.get? x = (objs.filter fun o => refOf K o = x).getLast? := by
  unfold replace
  induction objs using List.reverseRecOn with
  | nil => rfl
  | append_singleton objs o ih =>
    dsimp only at ih ⊢
    rw [List.map_append, List.map_singleton, Table.ofList_append_singleton, Table.get?_insert, ih,
      List.filter_append]
    by_cases ho : x = refOf K o
    · simp [ho]
    · simp [ho, Ne.symm ho]

/-! ### Replays -/

/-- The cache after a sequence of changes. -/
def replay (cs : List (Change α)) (s : Cache α) : Cache α :=
  cs.foldl (apply K) s

@[simp] theorem replay_nil (s : Cache α) : replay K [] s = s := rfl

@[simp] theorem replay_cons (c : Change α) (cs : List (Change α)) (s : Cache α) :
    replay K (c :: cs) s = replay K cs (s.apply K c) := rfl

theorem replay_append (cs ds : List (Change α)) (s : Cache α) :
    replay K (cs ++ ds) s = replay K ds (replay K cs s) :=
  List.foldl_append

/-- What a reference finds after a replay depends on what it found before at most. -/
theorem get?_replay_congr {x : ObjectRef} (cs : List (Change α)) : ∀ {s t : Cache α},
    s.entries.get? x = t.entries.get? x →
    (replay K cs s).entries.get? x = (replay K cs t).entries.get? x := by
  induction cs with
  | nil => exact fun h => h
  | cons c cs ih =>
    intro s t h
    rw [replay_cons, replay_cons]
    apply ih
    rw [get?_apply, get?_apply, h]

/-- Changes that are about other objects leave what a reference finds alone. -/
theorem get?_replay_of_not_mem {cs : List (Change α)} {x : ObjectRef}
    (h : ¬ ∃ c ∈ cs, refOf K c.object = x) (s : Cache α) :
    (replay K cs s).entries.get? x = s.entries.get? x := by
  induction cs generalizing s with
  | nil => rfl
  | cons c cs ih =>
    have hc : ¬ x = refOf K c.object := fun hx => h ⟨c, List.mem_cons_self, hx.symm⟩
    have hcs : ¬ ∃ d ∈ cs, refOf K d.object = x := by
      rintro ⟨d, hd, hx⟩
      exact h ⟨d, List.mem_cons_of_mem _ hd, hx⟩
    rw [replay_cons, ih hcs, get?_apply, if_neg hc]

/-- Changes of which one is about an object decide on what its reference finds. -/
theorem get?_replay_of_mem {cs : List (Change α)} {x : ObjectRef}
    (h : ∃ c ∈ cs, refOf K c.object = x) (s t : Cache α) :
    (replay K cs s).entries.get? x = (replay K cs t).entries.get? x := by
  induction cs generalizing s t with
  | nil =>
    obtain ⟨c, hc, -⟩ := h
    cases hc
  | cons c cs ih =>
    rw [replay_cons, replay_cons]
    by_cases hcs : ∃ d ∈ cs, refOf K d.object = x
    · exact ih hcs _ _
    · obtain ⟨d, hd, hx⟩ := h
      rcases List.mem_cons.mp hd with rfl | hd
      · apply get?_replay_congr
        rw [get?_apply, get?_apply, if_pos hx.symm, if_pos hx.symm]
      · exact absurd ⟨d, hd, hx⟩ hcs

/-- Changes that are replayed again, on top of what they have led to, lead there again. -/
theorem replay_replay (cs : List (Change α)) (s : Cache α) :
    replay K cs (replay K cs s) = replay K cs s := by
  apply ext_get?
  intro x
  by_cases hx : ∃ c ∈ cs, refOf K c.object = x
  · exact get?_replay_of_mem K hx _ _
  · exact get?_replay_of_not_mem K hx _

/-- Changes may be replayed on top of what some of the first of them have led to. -/
theorem replay_append_replay (cs ds : List (Change α)) (s : Cache α) :
    replay K (cs ++ ds) (replay K cs s) = replay K (cs ++ ds) s := by
  rw [replay_append, replay_append, replay_replay]

end Cache
end ClusterKit
