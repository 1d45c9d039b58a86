/-
# Tables of lists

A table can be made of any list of pairs, of which the last with a key counts.
If the list has one value per key, its pairs are the view of the table; if it
ascends in some order, it is the list of entries in this order. So a set of texts
has the members of its list.

Key theorems: `Entries.get?_ofList`, `Entries.ofList_of_ascending`, `Entries.ofList_of_perm`,
`Table.get?_ofList_eq_some_iff`, `TextSet.mem_toList_ofList`.
-/
import Mathlib.Data.List.Induction
import Mathlib.Tactic.Common
import ClusterKit.Selector.Basic

namespace ClusterKit

namespace Entries

open scoped List

variable {κ : Type u} {ν : Type v} [Ord κ]

theorem ofList_append_singleton (ps : List (κ × ν)) (p : κ × ν) :
    ofList (ps ++ [p]) = insert p.1 p.2 (ofList ps) := by
  simp [ofList]

/-- An entry with a key behind all others goes to the end. -/
theorem insert_eq_append [Std.OrientedOrd κ] {k : κ} {v : ν} :
    ∀ {es : Entries κ ν}, (∀ e ∈ es, compare e.1 k = .lt) → insert k v es = es ++ [(k, v)]
  | [], _ => rfl
  | (j, u) :: es, h => by
    have hj : compare k j = .gt := Std.OrientedCmp.gt_of_lt (h (j, u) List.mem_cons_self)
    unfold insert
    rw [hj]
    simp only [List.cons_append]
    rw [insert_eq_append fun e he => h e (List.mem_cons_of_mem _ he)]

/-- A list that ascends is the list of its entries. -/
theorem ofList_of_ascending [Std.OrientedOrd κ] {ps : List (κ × ν)} (h : Ascending ps) :
    ofList ps = ps := by
  induction ps using List.reverseRecOn with
  | nil => rfl
  | append_singleton ps p ih =>
    unfold Ascending at h
    rw [List.pairwise_append] at h
    rw [ofList_append_singleton, ih h.1]
    exact insert_eq_append fun e he => h.2.2 e he p (List.mem_singleton_self p)

theorem insert_perm [Std.LawfulEqOrd κ] {k : κ} {v : ν} {es : Entries κ ν}
    (h : k ∉ es.map Prod.fst) : (insert k v es).Perm ((k, v) :: es) := by
  induction es with
  | nil => exact .refl _
  | cons e es ih =>
    obtain ⟨j, u⟩ := e
    obtain ⟨hne, hrest⟩ := not_or.mp (fun hor => h (List.mem_cons.mpr hor))
    unfold insert
    split <;> rename_i hk
    · exact .refl _
    · exact absurd (Std.LawfulEqCmp.eq_of_compare hk) hne
    · exact ((ih hrest).cons _).trans (.swap _ _ _)

/-- Pairs with one value per key are the entries, but for their order. -/
theorem ofList_perm [Std.LawfulEqOrd κ] {ps : List (κ × ν)} (h : (ps.map Prod.fst).Nodup) :
    (ofList ps).Perm ps := by
  induction ps using List.reverseRecOn with
  | nil => exact .refl _
  | append_singleton ps p ih =>
    have hcons : ((p :: ps).map Prod.fst).Nodup :=
      ((List.perm_append_singleton p ps).map _).nodup_iff.mp h
    obtain ⟨hnew, hrest⟩ := List.nodup_cons.mp hcons
    have hp := ih hrest
    rw [ofList_append_singleton]
    calc insert p.1 p.2 (ofList ps)
      _ ~ p :: ofList ps := insert_perm fun hmem => hnew ((hp.map _).mem_iff.mp hmem)
      _ ~ p :: ps := hp.cons p
      _ ~ ps ++ [p] := (List.perm_append_singleton p ps).symm

/-- Of the pairs with a key the last counts. -/
theorem get?_ofList [Std.LawfulEqOrd κ] [DecidableEq κ] (ps : List (κ × ν)) (k : κ) :
    get? k (ofList ps) = get? k ps.reverse := by
  induction ps using List.reverseRecOn with
  | nil => rfl
  | append_singleton ps p ih =>
    rw [ofList_append_singleton, get?_insert, ih, List.reverse_append]
    simp [get?, Std.LawfulEqCmp.compare_eq_iff_eq]

theorem get?_append (k : κ) (es fs : Entries κ ν) :
    get? k (es ++ fs) = (get? k es).or (get? k fs) := by
  induction es with
  | nil => rfl
  | cons e es ih =>
    rw [List.cons_append, get?, get?, ih]
    split <;> rfl

theorem get?_reverse_eq_none [Std.LawfulEqOrd κ] {k : κ} {ps : List (κ × ν)}
    (h : k ∉ ps.map Prod.fst) : get? k ps.reverse = none :=
  get?_eq_none fun _ he heq =>
    h (Std.LawfulEqCmp.eq_of_compare heq ▸ List.mem_map_of_mem (List.mem_reverse.mp he))

theorem exists_get?_of_mem [Std.ReflOrd κ] {k : κ} {v : ν} {es : Entries κ ν} (h : (k, v) ∈ es) :
    ∃ u, get? k es = some u := by
  obtain ⟨fs, gs, rfl⟩ := List.append_of_mem h
  rw [get?_append]
  cases hf : get? k fs <;> simp [get?]

/-- In whatever order pairs come that ascend in one of them, their view is the same. -/
theorem get?_of_perm [Std.TransOrd κ] [Std.LawfulEqOrd κ] {ps es : Entries κ ν} (h : ps.Perm es)
    (hes : Ascending es) (k : κ) : get? k ps = get? k es := by
  refine Option.ext fun v => ⟨fun hv => ?_, fun hv => ?_⟩
  · exact get?_of_mem hes (h.mem_iff.mp (mem_of_get? hv))
  · obtain ⟨u, hu⟩ := exists_get?_of_mem (h.mem_iff.mpr (mem_of_get? hv))
    have hsame : get? k es = some u := get?_of_mem hes (h.mem_iff.mp (mem_of_get? hu))
    rw [hu, ← hsame, hv]

theorem get?_reverse [Std.TransOrd κ] [Std.LawfulEqOrd κ] {es : Entries κ ν} (h : Ascending es)
    (k : κ) : get? k es.reverse = get? k es :=
  get?_of_perm es.reverse_perm h k

/-- So they have the same entries. -/
theorem ofList_of_perm [Std.TransOrd κ] [Std.LawfulEqOrd κ] [DecidableEq κ] {ps es : Entries κ ν}
    (h : ps.Perm es) (hes : Ascending es) : ofList ps = es := by
  refine eq_of_get?_eq (ascending_ofList ps) hes fun k => ?_
  rw [get?_ofList, get?_of_perm (ps.reverse_perm.trans h) hes]

theorem Ascending.nodup [Std.ReflOrd κ] {es : Entries κ ν} (h : Ascending es) :
    (es.map Prod.fst).Nodup := by
  refine List.pairwise_map.mpr (List.Pairwise.imp (fun hlt heq => ?_) h)
  rw [heq] at hlt
  simp at hlt

/-- The members of an ascending list count before those in front of it. -/
theorem get?_ofList_append [Std.TransOrd κ] [Std.LawfulEqOrd κ] [DecidableEq κ]
    (ps : List (κ × ν)) {es : Entries κ ν} (h : Ascending es) (k : κ) :
    get? k (ofList (ps ++ es)) = (get? k es).or (get? k (ofList ps)) := by
  rw [get?_ofList, get?_ofList, List.reverse_append, get?_append, get?_reverse h]

theorem get?_filter_key [Std.LawfulEqOrd κ] (p : κ → Bool) (k : κ) (es : Entries κ ν) :
    get? k (es.filter fun e => p e.1) = if p k then get? k es else none := by
  induction es with
  | nil => simp [get?]
  | cons e es ih =>
    by_cases hk : compare k e.1 = .eq
    · have hke : k = e.1 := Std.LawfulEqCmp.eq_of_compare hk
      by_cases hp : p k
      · rw [List.filter_cons_of_pos (hke ▸ hp)]
        simp [get?, hk, hp]
      · rw [List.filter_cons_of_neg (hke ▸ hp), ih, if_neg hp, if_neg hp]
    · have hskip : get? k (e :: es) = get? k es := by simp [get?, hk]
      by_cases hp : p e.1
      · simp only [List.filter_cons, if_pos hp, hskip, ← ih]
        simp [get?, hk]
      · simp only [List.filter_cons, if_neg hp, hskip, ih]

end Entries

namespace Table

variable {κ : Type u} {ν : Type v} [Ord κ] [Std.TransOrd κ] [Std.LawfulEqOrd κ]

theorem ofList_append_singleton (ps : List (κ × ν)) (p : κ × ν) :
    ofList (ps ++ [p]) = (ofList ps).insert p.1 p.2 := by
  simp [ofList]

theorem entries_ofList (ps : List (κ × ν)) : (ofList ps).entries = Entries.ofList ps := by
  induction ps using List.reverseRecOn with
  | nil => rfl
  | append_singleton ps p ih =>
    rw [ofList_append_singleton, Entries.ofList_append_singleton, ← ih]
    rfl

/-- Of the pairs with a key the table has the last value. -/
theorem get?_ofList_last [DecidableEq κ] {k : κ} {qs : List (κ × ν)} (h : k ∉ qs.map Prod.fst)
    (ps : List (κ × ν)) (v : ν) : (ofList (ps ++ (k, v) :: qs)).get? k = some v := by
  unfold get?
  rw [entries_ofList, Entries.get?_ofList, List.reverse_append, List.reverse_cons,
    List.append_assoc, Entries.get?_append, Entries.get?_reverse_eq_none h]
  simp [Entries.get?]

theorem get?_ofList_eq_none [DecidableEq κ] {k : κ} {ps : List (κ × ν)}
    (h : k ∉ ps.map Prod.fst) : (ofList ps).get? k = none := by
  unfold get?
  rw [entries_ofList, Entries.get?_ofList, Entries.get?_reverse_eq_none h]

/-- A table is the one of its entries. -/
theorem ofList_toList (t : Table κ ν) : ofList t.toList = t := by
  obtain ⟨es, h⟩ := t
  have he : (ofList es).entries = es := (entries_ofList es).trans (Entries.ofList_of_ascending h)
  show ofList es = _
  cases hs : ofList es
  rw [hs] at he
  cases he
  rfl

/-- A list of pairs in which each key has one value is the view of its table. -/
theorem get?_ofList_eq_some_iff [DecidableEq κ] {ps : List (κ × ν)}
    (h : ∀ p ∈ ps, ∀ q ∈ ps, p.1 = q.1 → p.2 = q.2) (k : κ) (v : ν) :
    (ofList ps).get? k = some v ↔ (k, v) ∈ ps := by
  unfold get?
  rw [entries_ofList, Entries.get?_ofList]
  constructor
  · intro hk
    exact List.mem_reverse.mp (Entries.mem_of_get? hk)
  · intro hm
    obtain ⟨u, hk⟩ := Entries.exists_get?_of_mem (List.mem_reverse.mpr hm)
    have hu : (k, u) ∈ ps := List.mem_reverse.mp (Entries.mem_of_get? hk)
    exact hk.trans (congrArg some (h (k, u) hu (k, v) hm rfl))

end Table

/-! ### Sets of texts -/

namespace TextSet

theorem mem_toList_iff {s : TextSet} {x : String} : x ∈ s.toList ↔ s.get? x = some () := by
  rw [toList, List.mem_map, ← Table.mem_toList_iff]
  constructor
  · rintro ⟨⟨y, u⟩, hy, rfl⟩
    exact hy
  · intro hx
    exact ⟨(x, ()), hx, rfl⟩

theorem mem_toList_ofList {xs : List String} {x : String} : x ∈ (ofList xs).toList ↔ x ∈ xs := by
  rw [mem_toList_iff, ofList, Table.get?_ofList_eq_some_iff fun _ _ _ _ _ => rfl]
  simp

/-- A set is determined by its members. -/
theorem eq_ofList {s : TextSet} {xs : List String} (h : ∀ x, x ∈ s.toList ↔ x ∈ xs) :
    s = ofList xs := by
  refine Table.ext_get? fun x => Option.ext fun u => ?_
  rw [← mem_toList_iff, ← mem_toList_iff, mem_toList_ofList]
  exact h x

end TextSet
end ClusterKit
