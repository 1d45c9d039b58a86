/-
# Lists of a cache

A cache keeps each object under its own reference, one object per reference. So what
it lists is settled by two things: the objects that are selected, and the order of their
references, in which those outside of namespaces come first. This is what sorting
makes of the entries in whatever order they are found, and it falls into the objects
outside of namespaces and then those of one namespace after the other.

Key definitions: `ObjectRef.Before`, `Cache.Keyed`, `Cache.Ascends`, `Cache.sorted`,
`Cache.namespaces`, `Cache.listOutside`.
Key theorems: `Cache.Keyed.mem_select`, `Cache.Ascends.eq_of_mem_iff`,
`Cache.sorted_of_perm`, `Cache.lists_are_sorted_by_namespace`.
-/
import Mathlib.Data.String.Basic
import ClusterKit.Cache.Lister
import ClusterKit.Catalog.Custom
import ClusterKit.Proofs.Cache.LastWord

namespace ClusterKit

/-! ### The order of references -/

namespace ObjectRef

/-- The first reference comes before the second: those outside of namespaces before all
others, and else by namespace and then by name. -/
def Before (a b : ObjectRef) : Prop :=
  match a.ns, b.ns with
  | none, none => a.name < b.name
  | none, some _ => True
  | some _, none => False
  | some m, some n => m < n ∨ m = n ∧ a.name < b.name

theorem before_iff {a b : ObjectRef} : a.Before b ↔ compare a b = .lt := by
  have hcompare : compare a b = (compare a.ns b.ns).then (compare a.name b.name) := rfl
  obtain ⟨m, x⟩ := a
  obtain ⟨n, y⟩ := b
  rw [hcompare, Ordering.then_eq_lt, compare_lt_iff_lt]
  cases m with
  | none =>
    cases n with
    | none => exact ⟨fun h => .inr ⟨rfl, h⟩, fun h => (h.resolve_left nofun).2⟩
    | some n => exact ⟨fun _ => .inl rfl, fun _ => trivial⟩
  | some m =>
    cases n with
    | none => exact ⟨nofun, fun h => by cases h with | inl h => cases h | inr h => cases h.1⟩
    | some n =>
      have hsome : compare (some m) (some n) = compare m n := rfl
      show m < n ∨ m = n ∧ x < y ↔ _
      rw [hsome, compare_lt_iff_lt, compare_eq_iff_eq]

theorem Before.asymm {a b : ObjectRef} (h : a.Before b) : ¬ b.Before a := by
  rw [before_iff] at h ⊢
  rw [Std.OrientedCmp.gt_of_lt h]
  exact nofun

theorem Before.ne {a b : ObjectRef} (h : a.Before b) : a ≠ b := by
  rintro rfl
  exact h.asymm h

theorem ns_within_eq_some {r : ObjectRef} {ns m : String} :
    (r.within ns).ns = some m ↔ ns = m ∧ m ≠ "" := by
  unfold within
  by_cases h : ns.isEmpty = true
  · rw [if_pos h]
    rw [String.isEmpty_iff] at h
    exact ⟨nofun, fun hm => absurd (hm.1.symm.trans h) hm.2⟩
  · rw [if_neg h, Option.some.injEq]
    rw [String.isEmpty_iff] at h
    exact ⟨fun heq => ⟨heq, heq ▸ h⟩, And.left⟩

end ObjectRef

namespace Cache

variable (K : Kind α)

/-! ### Objects under their references -/

theorem ns_refOf_eq_some {o : α} {ns : String} :
    (refOf K o).ns = some ns ↔ (K.metadata o).ns = some ns ∧ ns ≠ "" := by
  unfold refOf ObjectRef.ofMeta
  rw [ObjectRef.ns_within_eq_some]
  cases (K.metadata o).ns with
  | none => exact ⟨fun h => absurd h.1.symm h.2, fun h => nomatch h.1⟩
  | some m => simp

theorem ns_refOf_eq_none {o : α} :
    (refOf K o).ns = none ↔ (K.metadata o).ns = none ∨ (K.metadata o).ns = some "" := by
  rw [Option.eq_none_iff_forall_ne_some]
  simp only [ne_eq, ns_refOf_eq_some]
  cases (K.metadata o).ns <;> simp

/-- Each object is kept under its own reference. -/
def Keyed (s : Cache α) : Prop :=
  ∀ x a, s.entries.get? x = some a → refOf K a = x

/-- The objects come in the order of their references, one for each. -/
def Ascends (l : List α) : Prop :=
  l.Pairwise fun a b => (refOf K a).Before (refOf K b)

variable {K} {s : Cache α}

theorem keyed_written (ops : List (Operation α)) : (written K ops).Keyed K := by
  intro x a h
  rw [get?_written] at h
  exact refOf_of_lastWord h

theorem Keyed.mem_toList (h : s.Keyed K) {o : α} :
    o ∈ s.toList ↔ s.entries.get? (refOf K o) = some o := by
  unfold toList Table.values
  rw [List.mem_map]
  constructor
  · rintro ⟨⟨x, a⟩, hmem, rfl⟩
    have hx : s.entries.get? x = some a := Table.mem_toList_iff.mp hmem
    exact (h x a hx).symm ▸ hx
  · intro ho
    exact ⟨(refOf K o, o), Table.mem_toList_iff.mpr ho, rfl⟩

/-- What is selected are the objects that are there and meet the condition. -/
theorem Keyed.mem_select (h : s.Keyed K) {p : ObjectRef → α → Bool} {o : α} :
    o ∈ s.select p ↔ o ∈ s.toList ∧ p (refOf K o) o = true := by
  have hkeyed : Keyed K ⟨s.entries.filter p⟩ := by
    intro x a hx
    rw [Table.get?_filter, Option.filter_eq_some_iff] at hx
    exact h x a hx.1
  rw [h.mem_toList, ← Option.filter_eq_some_iff (p := p (refOf K o)), ← Table.get?_filter]
  exact hkeyed.mem_toList

theorem Keyed.ascends_select (h : s.Keyed K) (p : ObjectRef → α → Bool) :
    Ascends K (s.select p) := by
  refine List.pairwise_map.mpr (List.Pairwise.imp_of_mem ?_ (s.entries.filter p).ascending)
  intro e f he hf hlt
  have hown : ∀ e ∈ (s.entries.filter p).entries, refOf K e.2 = e.1 := fun e he =>
    h e.1 e.2 (Table.mem_toList_iff.mp (List.mem_filter.mp he).1)
  rw [hown e he, hown f hf]
  exact ObjectRef.before_iff.mpr hlt

/-- Objects that come in order are told by which they are. -/
theorem Ascends.eq_of_mem_iff {l m : List α} (hl : Ascends K l) (hm : Ascends K m)
    (h : ∀ o, o ∈ l ↔ o ∈ m) : l = m := by
  have hnodup : ∀ {l : List α}, Ascends K l → l.Nodup := fun hl =>
    List.Pairwise.imp (fun hlt heq => hlt.ne (congrArg (refOf K) heq)) hl
  refine List.Perm.eq_of_pairwise (fun a b _ _ hab hba => absurd hba hab.asymm) hl hm ?_
  exact (List.perm_ext_iff_of_nodup (hnodup hl) (hnodup hm)).mpr h

/-! ### Sorting what is found -/

/-- Whether an entry may stand in front of another. -/
def precedes (a b : ObjectRef × α) : Bool :=
  (compare a.1 b.1).isLE

/-- What meets a condition among entries in any order, sorted by the references. -/
def sorted (p : ObjectRef → α → Bool) (es : List (ObjectRef × α)) : List α :=
  ((es.filter fun e => p e.1 e.2).mergeSort precedes).map (·.2)

theorem pairwise_mergeSort_precedes (es : List (ObjectRef × α)) :
    (es.mergeSort precedes).Pairwise fun a b => precedes a b = true := by
  refine List.pairwise_mergeSort (fun a b c => Std.TransCmp.isLE_trans) (fun a b => ?_) es
  have hswap : compare a.1 b.1 = (compare b.1 a.1).swap := Std.OrientedCmp.eq_swap
  unfold precedes
  rw [hswap]
  cases compare b.1 a.1 <;> rfl

/-- In whatever order the entries are found, sorting leads to the order of the cache. -/
theorem sorted_of_perm {es : List (ObjectRef × α)} (h : es.Perm s.entries.toList)
    (p : ObjectRef → α → Bool) : sorted p es = s.select p := by
  have hperm : ((es.filter fun e => p e.1 e.2).mergeSort precedes).Perm
      (s.entries.filter p).entries := (List.mergeSort_perm _ _).trans (h.filter _)
  have hsame : ∀ a b : ObjectRef × α, a ∈ (es.filter fun e => p e.1 e.2).mergeSort precedes →
      b ∈ (s.entries.filter p).entries → precedes a b = true → precedes b a = true → a = b := by
    intro a b ha hb hab hba
    have hkey : a.1 = b.1 := Std.LawfulEqCmp.eq_of_compare (Std.OrientedCmp.isLE_antisymm hab hba)
    have hget : ∀ e ∈ (s.entries.filter p).entries,
        (s.entries.filter p).get? e.1 = some e.2 := fun _ he => Table.mem_toList_iff.mp he
    have hvalue : some a.2 = some b.2 := by
      rw [← hget a (hperm.mem_iff.mp ha), hkey, hget b hb]
    exact Prod.ext hkey (Option.some.inj hvalue)
  have hentries : (s.entries.filter p).entries.Pairwise fun a b => precedes a b = true := by
    refine (s.entries.filter p).ascending.imp fun hlt => ?_
    rw [precedes, hlt]
    rfl
  exact congrArg (List.map Prod.snd)
    (List.Perm.eq_of_pairwise hsame (pairwise_mergeSort_precedes _) hentries hperm)

/-! ### One namespace after the other -/

/-- The namespaces of the objects that are in one, in ascending order. -/
def namespaces (s : Cache α) : List String :=
  (TextSet.ofList (s.entries.toList.filterMap (·.1.ns))).toList

variable (K) in
/-- The objects outside of namespaces that a selector selects. -/
def listOutside (s : Cache α) (sel : Selector) : List α :=
  s.select fun r o => r.ns == none && sel.selects (K.labels o)

theorem pairwise_namespaces (s : Cache α) : s.namespaces.Pairwise (· < ·) := by
  refine List.pairwise_map.mpr (List.Pairwise.imp ?_ (TextSet.ofList _).ascending)
  exact fun h => compare_lt_iff_lt.mp h

theorem Keyed.mem_namespaces (h : s.Keyed K) {ns : String} :
    ns ∈ s.namespaces ↔ ∃ o ∈ s.toList, (refOf K o).ns = some ns := by
  unfold namespaces
  rw [TextSet.mem_toList_ofList, List.mem_filterMap]
  constructor
  · rintro ⟨⟨x, a⟩, hmem, hns⟩
    have hx : s.entries.get? x = some a := Table.mem_toList_iff.mp hmem
    obtain rfl := h x a hx
    exact ⟨a, h.mem_toList.mpr hx, hns⟩
  · rintro ⟨o, ho, hns⟩
    exact ⟨(refOf K o, o), Table.mem_toList_iff.mpr (h.mem_toList.mp ho), hns⟩

theorem Keyed.mem_list (h : s.Keyed K) {sel : Selector} {o : α} :
    o ∈ s.list K sel ↔ o ∈ s.toList ∧ sel.selects (K.labels o) = true :=
  h.mem_select

theorem Keyed.mem_listOutside (h : s.Keyed K) {sel : Selector} {o : α} :
    o ∈ s.listOutside K sel ↔ o ∈ s.list K sel ∧ (refOf K o).ns = none := by
  unfold listOutside
  rw [h.mem_select, h.mem_list, Bool.and_eq_true, beq_iff_eq]
  tauto

theorem Keyed.mem_listIn (h : s.Keyed K) {sel : Selector} {ns : String} {o : α} :
    o ∈ s.listIn K ns sel ↔ o ∈ s.list K sel ∧ (refOf K o).ns = some ns := by
  unfold listIn
  rw [h.mem_select, h.mem_list, Bool.and_eq_true, beq_iff_eq]
  tauto

/-- A list falls into the objects outside of namespaces and those of each namespace. -/
theorem Keyed.list_eq_append (h : s.Keyed K) (sel : Selector) :
    s.list K sel = s.listOutside K sel ++ s.namespaces.flatMap fun ns => s.listIn K ns sel := by
  refine Ascends.eq_of_mem_iff (h.ascends_select _) (List.pairwise_append.mpr ⟨?_, ?_, ?_⟩) ?_
  · exact h.ascends_select _
  · refine List.pairwise_flatMap.mpr ⟨fun ns _ => h.ascends_select _, ?_⟩
    refine (pairwise_namespaces s).imp fun hlt a ha b hb => ?_
    have hns := (h.mem_listIn.mp ha).2
    have hns' := (h.mem_listIn.mp hb).2
    unfold ObjectRef.Before
    rw [hns, hns']
    exact .inl hlt
  · intro a ha b hb
    obtain ⟨ns, -, hb⟩ := List.mem_flatMap.mp hb
    unfold ObjectRef.Before
    rw [(h.mem_listOutside.mp ha).2, (h.mem_listIn.mp hb).2]
    trivial
  · intro o
    rw [List.mem_append, List.mem_flatMap, h.mem_listOutside]
    constructor
    · intro ho
      cases hns : (refOf K o).ns with
      | none => exact .inl ⟨ho, rfl⟩
      | some ns =>
        have hmem : ns ∈ s.namespaces := h.mem_namespaces.mpr ⟨o, (h.mem_list.mp ho).1, hns⟩
        exact .inr ⟨ns, hmem, h.mem_listIn.mpr ⟨ho, hns⟩⟩
    · rintro (ho | ⟨ns, -, ho⟩)
      · exact ho.1
      · exact (h.mem_listIn.mp ho).1

/-- **Lists are sorted and go by namespace.** After any changes and replacements of a cache, each
list of it is the one in which exactly the objects that the selector selects stand, of those that
the last word on their references was, each once and in the order of their references: the
order is strict, so nothing but what is there counts, and not how it came there or where it is
found. The list is made of the objects outside of namespaces (which name none, or the empty one)
and then those of each namespace that some object is in, in ascending order of the namespaces. -/
theorem lists_are_sorted_by_namespace (K : Kind α) (ops : List (Operation α)) (sel : Selector) :
    let s := written K ops
    (∀ l, l = s.list K sel ↔ Ascends K l ∧
      ∀ o, o ∈ l ↔ lastWord K ops (refOf K o) = some o ∧ sel.selects (K.labels o) = true) ∧
    (∀ es, es.Perm s.entries.toList → ∀ p, sorted p es = s.select p) ∧
    s.list K sel = s.listOutside K sel ++ s.namespaces.flatMap (fun ns => s.listIn K ns sel) ∧
    (∀ o, o ∈ s.listOutside K sel ↔ o ∈ s.list K sel ∧
      ((K.metadata o).ns = none ∨ (K.metadata o).ns = some "")) ∧
    s.namespaces.Pairwise (· < ·) ∧
    ∀ ns, ns ∈ s.namespaces ↔ ns ≠ "" ∧
      ∃ o, lastWord K ops (refOf K o) = some o ∧ (K.metadata o).ns = some ns := by
  intro s
  have hs : s.Keyed K := keyed_written ops
  have hcached : ∀ {o}, o ∈ s.toList ↔ lastWord K ops (refOf K o) = some o := by
    intro o
    rw [hs.mem_toList, get?_written]
  have hmem : ∀ o, o ∈ s.list K sel ↔
      lastWord K ops (refOf K o) = some o ∧ sel.selects (K.labels o) = true := by
    intro o
    rw [hs.mem_list, hcached]
  refine ⟨fun l => ⟨?_, ?_⟩, fun es hes => sorted_of_perm hes, hs.list_eq_append sel, ?_,
    pairwise_namespaces s, ?_⟩
  · rintro rfl
    exact ⟨hs.ascends_select _, hmem⟩
  · rintro ⟨hasc, hl⟩
    exact hasc.eq_of_mem_iff (hs.ascends_select _) fun o => (hl o).trans (hmem o).symm
  · intro o
    rw [hs.mem_listOutside, ns_refOf_eq_none]
  · intro ns
    rw [hs.mem_namespaces]
    constructor
    · rintro ⟨o, ho, hns⟩
      obtain ⟨hown, hne⟩ := (ns_refOf_eq_some K).mp hns
      exact ⟨hne, o, hcached.mp ho, hown⟩
    · rintro ⟨hne, o, ho, hown⟩
      exact ⟨o, hcached.mpr ho, (ns_refOf_eq_some K).mpr ⟨hown, hne⟩⟩

/-- Knives that come in another order, one of them without a namespace and one only to be deleted,
are listed by namespace and name, also when the entries are found from the last to the first. -/
theorem knives_are_listed_by_namespace :
    let knife (ns : Option String) (name : String) (labels : Labels) : Knife :=
      ⟨{ ObjectMeta.named name with ns := ns, labels := some labels }, []⟩
    let web : Labels := .ofList [("tier", "web")]
    let db : Labels := .ofList [("tier", "db")]
    let ops : List (Operation Knife) :=
      [.apply (.added (knife (some "c") "gone" web)),
        .replace [knife (some "b") "one" web, knife (some "a") "two" db,
          knife (some "a") "three" web],
        .apply (.added (knife none "zero" web)), .apply (.added (knife (some "a") "four" web)),
        .apply (.deleted (knife (some "a") "four" db))]
    let s := written Knife.asKind ops
    let sel : Selector := ⟨[.equal "tier" "web"]⟩
    s.entries.toList.reverse.Perm s.entries.toList ∧
      sorted (fun _ o => sel.selects (Knife.asKind.labels o)) s.entries.toList.reverse =
        [knife none "zero" web, knife (some "a") "three" web, knife (some "b") "one" web] ∧
      s.namespaces = ["a", "b"] := by
  intro knife web db ops s sel
  have hperm : s.entries.toList.reverse.Perm s.entries.toList := List.reverse_perm _
  obtain ⟨-, hsorted, -⟩ := lists_are_sorted_by_namespace Knife.asKind ops sel
  refine ⟨hperm, (hsorted _ hperm _).trans ?_, ?_⟩
  · decide +kernel
  · decide +kernel

end Cache
end ClusterKit
