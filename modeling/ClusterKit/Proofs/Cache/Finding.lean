/-
# Finding what is listed

Within a namespace an object is got by its name and listed beside others, and what is got
should be what is listed. So it is for every namespace that has a name. For the empty
one it is not: a reference without a namespace leads to the objects outside of namespaces,
whose metadata then name none either, while a list compares with the empty name itself, under
which nothing is kept.

Key theorems: `Cache.Keyed.findIn?_eq_some`, `Cache.Keyed.listIn_empty`,
`Cache.found_is_listed_unless_namespace_is_empty`.
-/
import ClusterKit.Proofs.Cache.Listing

namespace ClusterKit
namespace Cache

variable {K : Kind α} {s : Cache α}

/-- An object is found by its name if its metadata name the namespace, or none for the empty
one. -/
theorem Keyed.findIn?_eq_some (h : s.Keyed K) {ns name : String} {o : α} :
    s.findIn? K ns name = some o ↔ o ∈ s.toList ∧
      (K.metadata o).name.getD "" = name ∧
      (K.metadata o).ns = if ns = "" then none else some ns := by
  set r := (ObjectRef.named name).within ns with hr
  have hns : r.ns = if ns = "" then none else some ns := by
    rw [hr, ObjectRef.within]
    simp only [String.isEmpty_iff]
  have hfind : s.findIn? K ns name = some o ↔ s.get? r = some o ∧ (K.metadata o).ns = r.ns := by
    unfold findIn?
    rw [Option.filter_eq_some_iff, beq_iff_eq]
  have hrefns : (K.metadata o).ns = r.ns → (refOf K o).ns = r.ns := by
    intro hown
    cases hm : r.ns with
    | none => exact (ns_refOf_eq_none K).mpr (.inl (hown.trans hm))
    | some m =>
      exact (ns_refOf_eq_some K).mpr ⟨hown.trans hm, (ObjectRef.ns_within_eq_some.mp hm).2⟩
  rw [hfind, ← hns]
  constructor
  · rintro ⟨hget, hown⟩
    rcases Option.or_eq_some_iff.mp hget with hkey | ⟨-, hbare⟩
    · have href : refOf K o = r := h _ _ hkey
      exact ⟨h.mem_toList.mpr (href ▸ hkey), congrArg ObjectRef.name href, hown⟩
    · -- the object outside of namespaces that the cache falls back on does not pass the filter
      split at hbare
      · rename_i hsome
        have href : refOf K o = .named r.name := h _ _ hbare
        rw [← hrefns hown, href] at hsome
        cases hsome
      · cases hbare
  · rintro ⟨hmem, hname, hown⟩
    have href : refOf K o = r := congrArg₂ ObjectRef.mk (hrefns hown) hname
    exact ⟨Option.or_eq_some_iff.mpr (.inl (href ▸ h.mem_toList.mp hmem)), hown⟩

/-- No object is kept under the empty namespace, so nothing is listed within it. -/
theorem Keyed.listIn_empty (h : s.Keyed K) (sel : Selector) : s.listIn K "" sel = [] := by
  refine List.eq_nil_iff_forall_not_mem.mpr fun o ho => ?_
  exact ((ns_refOf_eq_some K).mp (h.mem_listIn.mp ho).2).2 rfl

theorem Keyed.mem_listIn_everything (h : s.Keyed K) {ns : String} {o : α} :
    o ∈ s.listIn K ns .everything ↔ o ∈ s.toList ∧ (K.metadata o).ns = some ns ∧ ns ≠ "" := by
  have hall : Selector.everything.selects (K.labels o) = true := rfl
  rw [h.mem_listIn, h.mem_list, ns_refOf_eq_some]
  simp only [hall, and_true]

/-- **What is found is what is listed, unless the namespace is empty.** After any changes and
replacements of a cache, an object is found by its name within a namespace exactly if it goes by
this name and is listed within that namespace or, where the namespace is the empty one, is in the
cache and names no namespace. Under the empty namespace nothing is listed at all, so that there
finding and listing part as soon as one object names no namespace; elsewhere they never do. -/
theorem found_is_listed_unless_namespace_is_empty (K : Kind α) (ops : List (Operation α)) :
    let s := written K ops
    (∀ ns name o, s.findIn? K ns name = some o ↔
      (o ∈ s.listIn K ns .everything ∨ ns = "" ∧ o ∈ s.toList ∧ (K.metadata o).ns = none) ∧
        (K.metadata o).name.getD "" = name) ∧
    (∀ sel, s.listIn K "" sel = []) ∧
    ∀ ns, (∀ name o, s.findIn? K ns name = some o ↔
        o ∈ s.listIn K ns .everything ∧ (K.metadata o).name.getD "" = name) ↔
      (ns = "" → ∀ o ∈ s.toList, (K.metadata o).ns ≠ none) := by
  intro s
  have hs : s.Keyed K := keyed_written ops
  have hfound : ∀ ns name o, s.findIn? K ns name = some o ↔
      (o ∈ s.listIn K ns .everything ∨ ns = "" ∧ o ∈ s.toList ∧ (K.metadata o).ns = none) ∧
        (K.metadata o).name.getD "" = name := by
    intro ns name o
    rw [hs.findIn?_eq_some, hs.mem_listIn_everything]
    by_cases hns : ns = ""
    · simp only [hns, if_pos, ne_eq, not_true_eq_false, and_false, false_or, true_and]
      tauto
    · simp only [hns, if_neg, ne_eq, not_false_eq_true, and_true, false_and, or_false]
      tauto
  refine ⟨hfound, hs.listIn_empty, fun ns => ⟨?_, ?_⟩⟩
  · rintro hagree rfl o ho hout
    have hlisted := ((hagree _ o).mp ((hfound "" _ o).mpr ⟨.inr ⟨rfl, ho, hout⟩, rfl⟩)).1
    rw [hs.listIn_empty] at hlisted
    cases hlisted
  · intro hnone name o
    rw [hfound]
    refine and_congr_left fun _ => or_iff_left ?_
    rintro ⟨hns, ho, hout⟩
    exact hnone hns o ho hout

/-- A knife that names no namespace is found by its name under the empty namespace, where it is
not listed. -/
theorem knife_outside_namespaces_is_found_but_not_listed :
    let knife : Knife := ⟨.named "obj", []⟩
    let s := written Knife.asKind [.apply (.added knife)]
    s.findIn? Knife.asKind "" "obj" = some knife ∧
      s.listIn Knife.asKind "" .everything = [] ∧
      ¬ ∀ name o, s.findIn? Knife.asKind "" name = some o ↔
        o ∈ s.listIn Knife.asKind "" .everything ∧ (Knife.asKind.metadata o).name.getD "" = name := by
  intro knife s
  have hfound : s.findIn? Knife.asKind "" "obj" = some knife := by decide +kernel
  have hlisted : s.listIn Knife.asKind "" .everything = [] := by decide +kernel
  refine ⟨hfound, hlisted, fun hagree => ?_⟩
  have hmem := ((hagree "obj" knife).mp hfound).1
  rw [hlisted] at hmem
  cases hmem

end Cache
end ClusterKit
