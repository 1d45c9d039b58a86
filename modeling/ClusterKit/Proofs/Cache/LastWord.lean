/-
# The last word on a reference

A cache is written by changes and by whole lists, in any order and number. A
change has a word to say on one reference, that it finds the object or that it
finds nothing; a list has one on every reference, since what it does not list is
gone. In the end each reference finds what the last word on it was, and so a
list alone leaves what its objects leave that are added one by one.

Key definitions: `Cache.Operation`, `Cache.Operation.word?`, `Cache.written`, `Cache.lastWord`.
Key theorems: `Cache.get?_written`, `Cache.entries_are_last_words`.
-/
import ClusterKit.Proofs.Cache.Replay

namespace ClusterKit
namespace Cache

/-- What may be done to a cache: it follows a change, or it is replaced by a list. -/
inductive Operation (α : Type u)
  | apply (c : Change α)
  | replace (objs : List α)

section

variable (K : Kind α)

namespace Operation

/-- The cache after an operation. -/
def run (s : Cache α) : Operation α → Cache α
  | .apply c => s.apply K c
  | .replace objs => Cache.replace K objs

/-- What an operation says that a reference finds, if it says anything on it: a change speaks
of the reference to its object only, and a list of all. -/
def word? (x : ObjectRef) : Operation α → Option (Option α)
  | .apply c => if refOf K c.object = x then some c.result? else none
  | .replace objs => some (objs.filter fun o => refOf K o = x).getLast?

end Operation

/-- The cache after some operations on an empty one. -/
def written (ops : List (Operation α)) : Cache α :=
  ops.foldl (Operation.run K) .empty

/-- The last that operations say on a reference; where none does, there is nothing. -/
def lastWord (ops : List (Operation α)) (x : ObjectRef) : Option α :=
  ((ops.filterMap (Operation.word? K x)).getLast?).join

end

variable {K : Kind α}

theorem written_append (ops more : List (Operation α)) :
    written K (ops ++ more) = more.foldl (Operation.run K) (written K ops) :=
  List.foldl_append

/-- An operation has its word where it says one, and leaves the other references alone. -/
theorem get?_run (s : Cache α) (op : Operation α) (x : ObjectRef) :
    (op.run K s).entries.get? x = (op.word? K x).getD (s.entries.get? x) := by
  cases op with
  | apply c =>
    have happly : (s.apply K c).entries.get? x =
        if x = refOf K c.object then c.result? else s.entries.get? x := get?_apply K s c x
    by_cases hx : refOf K c.object = x
    · simp [Operation.run, Operation.word?, happly, hx]
    · simp [Operation.run, Operation.word?, happly, hx, Ne.symm hx]
  | replace objs => exact get?_replace_eq_getLast? K objs x

theorem lastWord_append_singleton (ops : List (Operation α)) (op : Operation α) (x : ObjectRef) :
    lastWord K (ops ++ [op]) x = (op.word? K x).getD (lastWord K ops x) := by
  unfold lastWord
  cases hw : op.word? K x with
  | none => simp [hw]
  | some w => simp [hw]

/-- A reference finds what the last word on it was. -/
theorem get?_written (ops : List (Operation α)) (x : ObjectRef) :
    (written K ops).entries.get? x = lastWord K ops x := by
  induction ops using List.reverseRecOn with
  | nil => rfl
  | append_singleton ops op ih =>
    calc (written K (ops ++ [op])).entries.get? x
        = (op.run K (written K ops)).entries.get? x := by rw [written_append]; rfl
      _ = (op.word? K x).getD (lastWord K ops x) := by rw [get?_run, ih]
      _ = lastWord K (ops ++ [op]) x := (lastWord_append_singleton ops op x).symm

/-- An object that some operation says is found at a reference goes by it. -/
theorem refOf_of_word? {op : Operation α} {x : ObjectRef} {a : α}
    (h : op.word? K x = some (some a)) : refOf K a = x := by
  cases op with
  | apply c =>
    by_cases hx : refOf K c.object = x
    · have hc : c.result? = some a := by simpa [Operation.word?, hx] using h
      have ha : c.object = a := by
        cases c with
        | added o => exact Option.some.inj hc
        | modified o => exact Option.some.inj hc
        | deleted o => cases hc
      exact ha ▸ hx
    · simp [Operation.word?, hx] at h
  | replace objs =>
    have hlast : (objs.filter fun o => refOf K o = x).getLast? = some a := Option.some.inj h
    have hmem : a ∈ objs.filter fun o => refOf K o = x := List.mem_of_getLast? hlast
    simpa using (List.mem_filter.mp hmem).2

theorem refOf_of_lastWord {ops : List (Operation α)} {x : ObjectRef} {a : α}
    (h : lastWord K ops x = some a) : refOf K a = x := by
  have hlast : (ops.filterMap (Operation.word? K x)).getLast? = some (some a) :=
    Option.join_eq_some_iff.mp h
  obtain ⟨op, -, hop⟩ := List.mem_filterMap.mp (List.mem_of_getLast? hlast)
  exact refOf_of_word? hop

/-- After a list, nothing that was said before it counts. -/
theorem written_append_replace (ops : List (Operation α)) (objs : List α) :
    written K (ops ++ [.replace objs]) = replace K objs := by
  rw [written_append]
  rfl

/-- Objects that are added one by one leave the cache of their list. -/
theorem written_added (objs : List α) :
    written K (objs.map fun o => .apply (.added o)) = replace K objs := by
  apply ext_get?
  intro x
  have hword : ∀ o : α, (Operation.apply (.added o)).word? K x =
      if refOf K o = x then some (some o) else none := fun o => rfl
  have hwords : (objs.map fun o => Operation.apply (.added o)).filterMap (Operation.word? K x) =
      (objs.filter fun o => refOf K o = x).map some := by
    induction objs with
    | nil => rfl
    | cons o objs ih =>
      by_cases ho : refOf K o = x
      · simp [hword, ho, ih]
      · simp [hword, ho, ih]
  rw [get?_written, get?_replace_eq_getLast?, lastWord, hwords, List.getLast?_map]
  cases (objs.filter fun o => refOf K o = x).getLast? <;> rfl

/-- An object is referred to by its name, and by its namespace unless it has none or the empty
one. -/
theorem refOf_eq (K : Kind α) (a : α) : (refOf K a).name = (K.metadata a).name.getD "" ∧
    ∀ ns, (refOf K a).ns = some ns ↔ (K.metadata a).ns = some ns ∧ ns ≠ "" := by
  refine ⟨rfl, fun ns => ?_⟩
  unfold refOf ObjectRef.ofMeta ObjectRef.within
  dsimp only
  simp only [String.isEmpty_iff]
  cases (K.metadata a).ns with
  | none => exact ⟨nofun, nofun⟩
  | some own =>
    rw [Option.getD_some, Option.some.injEq]
    split
    · rename_i hown
      exact ⟨nofun, fun h => absurd (h.1.symm.trans hown) h.2⟩
    · rename_i hown
      rw [Option.some.injEq]
      exact ⟨fun h => ⟨h, h ▸ hown⟩, And.left⟩

/-- **The last word counts.** Whatever has been applied to a cache and however often it has been
replaced, each object is kept under its own reference, which is its name, with its namespace if
that is there and not empty. Each reference has what the last operation said that had a word on
it: the object of an addition or modification of it, nothing behind its deletion, and behind a
list the last object listed under it, or nothing if none is. A list leaves what its objects leave
that are added one by one to an empty cache. Asking for a reference answers with what it has, or
for one into a namespace that has nothing with what the bare name has. -/
theorem entries_are_last_words (K : Kind α) (ops : List (Operation α)) :
    (∀ x a, (written K ops).entries.get? x = some a → refOf K a = x) ∧
    (∀ a, (refOf K a).name = (K.metadata a).name.getD "" ∧
      ∀ ns, (refOf K a).ns = some ns ↔ (K.metadata a).ns = some ns ∧ ns ≠ "") ∧
    (∀ x, (written K ops).entries.get? x = lastWord K ops x) ∧
    (∀ objs, written K (ops ++ [.replace objs]) =
      written K (objs.map fun o => .apply (.added o))) ∧
    ∀ x, (written K ops).get? x = match lastWord K ops x, x.ns with
      | some a, _ => some a
      | none, some _ => lastWord K ops (.named x.name)
      | none, none => none := by
  refine ⟨?_, refOf_eq K, get?_written ops, ?_, ?_⟩
  · intro x a h
    rw [get?_written] at h
    exact refOf_of_lastWord h
  · intro objs
    rw [written_append_replace, written_added]
  · intro x
    rw [get?, get?_written, get?_written]
    cases lastWord K ops x with
    | some a => rfl
    | none => cases hx : x.ns <;> simp

end Cache
end ClusterKit
