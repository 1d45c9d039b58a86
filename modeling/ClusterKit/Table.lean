/-
# Tables in key order

A table holds at most one value per key and lists its entries in ascending
order of the keys. `Entries` are the bare lists behind tables; the functions
on them keep the order. The view of a table is `get?`: two tables with the
same view are equal (`Table.ext_get?`), and each operation says what it does to
the view (`Table.get?_insert`, `Table.get?_erase`, `Table.get?_filter`).

Key definitions: `Entries.insert`, `Entries.Ascending`, `Table`.
-/

namespace ClusterKit

/-- Values by key. -/
abbrev Entries (κ : Type u) (ν : Type v) := List (κ × ν)

namespace Entries

variable {κ : Type u} {ν : Type v} {μ : Type w} [Ord κ]

/-- The value of the first entry with key `k`. -/
def get? (k : κ) : Entries κ ν → Option ν
  | [] => none
  | (j, v) :: es => if compare k j = .eq then some v else get? k es

/-- Put `v` at `k`, in place of the value there or in front of the first larger key. -/
def insert (k : κ) (v : ν) : Entries κ ν → Entries κ ν
  | [] => [(k, v)]
  | (j, u) :: es =>
    match compare k j with
    | .lt => (k, v) :: (j, u) :: es
    | .eq => (k, v) :: es
    | .gt => (j, u) :: insert k v es

/-- Drop the entries with key `k`. -/
def erase (k : κ) (es : Entries κ ν) : Entries κ ν :=
  es.filter fun e => compare k e.1 != .eq

/-- The entries of a list of pairs, of which the last with a key counts. -/
def ofList (ps : List (κ × ν)) : Entries κ ν :=
  ps.foldl (fun es p => insert p.1 p.2 es) []

/-- The keys ascend strictly. -/
def Ascending (es : Entries κ ν) : Prop :=
  es.Pairwise fun a b => compare a.1 b.1 = .lt

instance (es : Entries κ ν) : Decidable (Ascending es) :=
  inferInstanceAs (Decidable (List.Pairwise _ _))

/-! ### The order is kept -/

theorem mem_insert {k : κ} {v : ν} {e : κ × ν} :
    ∀ {es : Entries κ ν}, e ∈ insert k v es → e = (k, v) ∨ e ∈ es
  | [], h => by simpa [insert] using h
  | (j, u) :: es, h => by
    unfold insert at h
    split at h
    · simpa using h
    · simp only [List.mem_cons] at h ⊢
      rcases h with h | h
      · exact .inl h
      · exact .inr (.inr h)
    · simp only [List.mem_cons] at h ⊢
      rcases h with h | h
      · exact .inr (.inl h)
      · rcases mem_insert h with h | h
        · exact .inl h
        · exact .inr (.inr h)

theorem ascending_insert [Std.TransOrd κ] [Std.LawfulEqOrd κ] {k : κ} {v : ν} :
    ∀ {es : Entries κ ν}, Ascending es → Ascending (insert k v es)
  | [], _ => by simp [insert, Ascending]
  | (j, u) :: es, h => by
    simp only [Ascending, List.pairwise_cons] at h
    unfold insert
    split <;> rename_i hk
    · simp only [Ascending, List.pairwise_cons, List.mem_cons]
      refine ⟨?_, h.1, h.2⟩
      rintro e (rfl | he)
      · exact hk
      · exact Std.TransCmp.lt_trans hk (h.1 e he)
    · have := Std.LawfulEqCmp.eq_of_compare hk
      subst this
      simp only [Ascending, List.pairwise_cons]
      exact h
    · simp only [Ascending, List.pairwise_cons]
      refine ⟨?_, ascending_insert h.2⟩
      intro e he
      rcases mem_insert he with rfl | he
      · exact Std.OrientedCmp.lt_of_gt hk
      · exact h.1 e he

theorem ascending_ofList [Std.TransOrd κ] [Std.LawfulEqOrd κ] (ps : List (κ × ν)) :
    Ascending (ofList ps) := by
  have hfold : ∀ (ps : List (κ × ν)) {es : Entries κ ν}, Ascending es →
      Ascending (ps.foldl (fun es p => insert p.1 p.2 es) es) := by
    intro ps
    induction ps with
    | nil => exact id
    | cons p ps ih => exact fun h => ih (ascending_insert h)
  exact hfold ps List.Pairwise.nil

theorem mem_ofList {ps : List (κ × ν)} {e : κ × ν} (h : e ∈ ofList ps) : e ∈ ps := by
  have hfold : ∀ (ps : List (κ × ν)) {es : Entries κ ν},
      e ∈ ps.foldl (fun es p => insert p.1 p.2 es) es → e ∈ ps ∨ e ∈ es := by
    intro ps
    induction ps with
    | nil => exact fun h => .inr h
    | cons p ps ih =>
      intro es h
      rcases ih h with h | h
      · exact .inl (List.mem_cons_of_mem _ h)
      · rcases mem_insert h with rfl | h
        · exact .inl List.mem_cons_self
        · exact .inr h
  exact (hfold ps h).resolve_right List.not_mem_nil

theorem ascending_filter {p : κ × ν → Bool} {es : Entries κ ν} (h : Ascending es) :
    Ascending (es.filter p) :=
  List.Pairwise.sublist List.filter_sublist h

/-! ### The view -/

theorem get?_insert [Std.LawfulEqOrd κ] [DecidableEq κ] {k j : κ} {v : ν} :
    ∀ {es : Entries κ ν}, get? j (insert k v es) = if j = k then some v else get? j es
  | [] => by simp [insert, get?, Std.LawfulEqCmp.compare_eq_iff_eq]
  | (i, u) :: es => by
    unfold insert
    split <;> rename_i hk
    · simp [get?, Std.LawfulEqCmp.compare_eq_iff_eq]
    · have := Std.LawfulEqCmp.eq_of_compare hk
      subst this
      simp only [get?, Std.LawfulEqCmp.compare_eq_iff_eq]
      split <;> rfl
    · have hne : k ≠ i := by
        rintro rfl
        simp at hk
      have ih : get? j (insert k v es) = if j = k then some v else get? j es := get?_insert
      simp only [get?, Std.LawfulEqCmp.compare_eq_iff_eq, ih]
      by_cases hi : j = i
      · subst hi
        simp [Ne.symm hne]
      · simp [hi]

theorem get?_eq_none {k : κ} : ∀ {es : Entries κ ν},
    (∀ e ∈ es, compare k e.1 ≠ .eq) → get? k es = none
  | [], _ => rfl
  | (j, v) :: es, h => by
    simp only [get?]
    rw [if_neg (h (j, v) List.mem_cons_self)]
    exact get?_eq_none fun e he => h e (List.mem_cons_of_mem _ he)

theorem mem_of_get? [Std.LawfulEqOrd κ] {k : κ} {v : ν} :
    ∀ {es : Entries κ ν}, get? k es = some v → (k, v) ∈ es
  | [], h => by simp [get?] at h
  | (j, u) :: es, h => by
    simp only [get?] at h
    split at h
    · rename_i hk
      have := Std.LawfulEqCmp.eq_of_compare hk
      subst this
      cases h
      exact List.mem_cons_self
    · exact List.mem_cons_of_mem _ (mem_of_get? h)

theorem get?_of_mem [Std.TransOrd κ] [Std.LawfulEqOrd κ] {k : κ} {v : ν} :
    ∀ {es : Entries κ ν}, Ascending es → (k, v) ∈ es → get? k es = some v
  | [], _, h => by simp at h
  | (j, u) :: es, ha, h => by
    simp only [Ascending, List.pairwise_cons] at ha
    rcases List.mem_cons.mp h with h | h
    · cases h
      simp [get?]
    · have hlt := ha.1 _ h
      have hne : compare k j ≠ .eq := by
        intro he
        have := Std.LawfulEqCmp.eq_of_compare he
        subst this
        simp at hlt
      simp only [get?, if_neg hne]
      exact get?_of_mem ha.2 h

theorem get?_eq_none_of_lt [Std.TransOrd κ] {k : κ} {es : Entries κ ν}
    (h : ∀ e ∈ es, compare k e.1 = .lt) : get? k es = none :=
  get?_eq_none fun e he => by simp [h e he]

/-- Ascending entries are determined by their view. -/
theorem eq_of_get?_eq [Std.TransOrd κ] [Std.LawfulEqOrd κ] :
    ∀ {es fs : Entries κ ν}, Ascending es → Ascending fs →
      (∀ k, get? k es = get? k fs) → es = fs
  | [], [], _, _, _ => rfl
  | [], (k, v) :: _, _, _, h => by simpa [get?] using h k
  | (k, v) :: _, [], _, _, h => by simpa [get?] using h k
  | (j, u) :: es, (k, v) :: fs, he, hf, h => by
    have hj : (j, u) ∈ (k, v) :: fs := mem_of_get? (by rw [← h j]; simp [get?])
    have hk : (k, v) ∈ (j, u) :: es := mem_of_get? (by rw [h k]; simp [get?])
    have hjk : (j, u) = (k, v) := by
      rcases List.mem_cons.mp hj with hj | hj
      · exact hj
      rcases List.mem_cons.mp hk with hk | hk
      · exact hk.symm
      have h₁ := (List.pairwise_cons.mp hf).1 _ hj
      have h₂ := (List.pairwise_cons.mp he).1 _ hk
      have := Std.TransCmp.lt_trans h₁ h₂
      simp at this
    cases hjk
    have hrest : ∀ i, get? i es = get? i fs := fun i => by
      have hi := h i
      simp only [get?] at hi
      split at hi
      · rename_i hij
        have := Std.LawfulEqCmp.eq_of_compare hij
        subst this
        rw [get?_eq_none_of_lt (List.pairwise_cons.mp he).1,
          get?_eq_none_of_lt (List.pairwise_cons.mp hf).1]
      · exact hi
    rw [eq_of_get?_eq (List.pairwise_cons.mp he).2 (List.pairwise_cons.mp hf).2 hrest]

end Entries

/-- At most one value per key, in ascending order of the keys. -/
structure Table (κ : Type u) (ν : Type v) [Ord κ] where
  entries : Entries κ ν
  ascending : Entries.Ascending entries

namespace Table

variable {κ : Type u} {ν : Type v} [Ord κ]

instance [DecidableEq κ] [DecidableEq ν] : DecidableEq (Table κ ν) := fun s t =>
  decidable_of_iff (s.entries = t.entries) ⟨fun h => by cases s; cases t; cases h; rfl,
    fun h => h ▸ rfl⟩

/-- The table without entries. -/
def empty : Table κ ν :=
  ⟨[], List.Pairwise.nil⟩

instance : Inhabited (Table κ ν) := ⟨empty⟩

instance : EmptyCollection (Table κ ν) := ⟨empty⟩

/-- The value at `k`. -/
def get? (t : Table κ ν) (k : κ) : Option ν :=
  Entries.get? k t.entries

/-- Whether there is a value at `k`. -/
def contains (t : Table κ ν) (k : κ) : Bool :=
  (t.get? k).isSome

/-- The number of entries. -/
def size (t : Table κ ν) : Nat :=
  t.entries.length

/-- The entries in ascending order. -/
def toList (t : Table κ ν) : List (κ × ν) :=
  t.entries

/-- The values in ascending order of their keys. -/
def values (t : Table κ ν) : List ν :=
  t.entries.map (·.2)

/-- Put `v` at `k`. -/
def insert [Std.TransOrd κ] [Std.LawfulEqOrd κ] (t : Table κ ν) (k : κ) (v : ν) : Table κ ν :=
  ⟨Entries.insert k v t.entries, Entries.ascending_insert t.ascending⟩

/-- Take the value at `k` out. -/
def erase (t : Table κ ν) (k : κ) : Table κ ν :=
  ⟨Entries.erase k t.entries, Entries.ascending_filter t.ascending⟩

/-- Keep the entries that `p` holds of. -/
def filter (t : Table κ ν) (p : κ → ν → Bool) : Table κ ν :=
  ⟨t.entries.filter fun e => p e.1 e.2, Entries.ascending_filter t.ascending⟩

/-- Change every value by `f`. -/
def map {μ : Type w} (f : κ → ν → μ) (t : Table κ ν) : Table κ μ :=
  ⟨t.entries.map fun e => (e.1, f e.1 e.2), by
    simpa [Entries.Ascending, List.pairwise_map] using t.ascending⟩

/-- The table of a list of pairs, of which the last with a key counts. -/
def ofList [Std.TransOrd κ] [Std.LawfulEqOrd κ] (ps : List (κ × ν)) : Table κ ν :=
  ps.foldl (fun t p => t.insert p.1 p.2) empty

theorem get?_insert [Std.TransOrd κ] [Std.LawfulEqOrd κ] [DecidableEq κ] (t : Table κ ν)
    (k j : κ) (v : ν) : (t.insert k v).get? j = if j = k then some v else t.get? j :=
  Entries.get?_insert

/-- A table is determined by its view. -/
theorem ext_get? [Std.TransOrd κ] [Std.LawfulEqOrd κ] {s t : Table κ ν}
    (h : ∀ k, s.get? k = t.get? k) : s = t := by
  cases s
  cases t
  congr
  exact Entries.eq_of_get?_eq ‹_› ‹_› h

theorem mem_toList_iff [Std.TransOrd κ] [Std.LawfulEqOrd κ] {t : Table κ ν} {k : κ} {v : ν} :
    (k, v) ∈ t.toList ↔ t.get? k = some v :=
  ⟨Entries.get?_of_mem t.ascending, Entries.mem_of_get?⟩

theorem get?_filter [Std.TransOrd κ] [Std.LawfulEqOrd κ] (t : Table κ ν) (p : κ → ν → Bool)
    (k : κ) : (t.filter p).get? k = (t.get? k).filter (p k) := by
  cases h : (t.filter p).get? k with
  | some v =>
    have hm := mem_toList_iff.mpr h
    simp only [toList, filter, List.mem_filter] at hm
    rw [show t.get? k = some v from mem_toList_iff.mp hm.1]
    simp [Option.filter, hm.2]
  | none =>
    cases h' : t.get? k with
    | none => rfl
    | some v =>
      simp only [Option.filter]
      split
      · rename_i hp
        have : (k, v) ∈ (t.filter p).toList := by
          simp only [toList, filter, List.mem_filter]
          exact ⟨mem_toList_iff.mpr h', hp⟩
        rw [mem_toList_iff.mp this] at h
        cases h
      · rfl

theorem get?_map [Std.LawfulEqOrd κ] {μ : Type w} (f : κ → ν → μ) (t : Table κ ν) (k : κ) :
    (t.map f).get? k = (t.get? k).map (f k) := by
  obtain ⟨es, h⟩ := t
  simp only [get?, map]
  clear h
  induction es with
  | nil => rfl
  | cons e es ih =>
    simp only [List.map_cons, Entries.get?]
    split
    · rename_i hk
      rw [Std.LawfulEqCmp.eq_of_compare hk]
      rfl
    · exact ih

theorem get?_erase [Std.TransOrd κ] [Std.LawfulEqOrd κ] [DecidableEq κ] (t : Table κ ν)
    (k j : κ) : (t.erase k).get? j = if j = k then none else t.get? j := by
  have h : t.erase k = t.filter fun i _ => compare k i != .eq := rfl
  rw [h, get?_filter]
  by_cases hj : j = k
  · subst hj
    cases t.get? j <;> simp [Option.filter]
  · have hne : (compare k j != Ordering.eq) = true := by
      simp only [bne_iff_ne, ne_eq, Std.LawfulEqCmp.compare_eq_iff_eq]
      exact fun h => hj h.symm
    cases t.get? j <;> simp [Option.filter, hj, hne]

end Table
end ClusterKit
