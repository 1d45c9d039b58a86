/-
# What a watch passes on

Of what its source sends, a watch passes on the changes before the first item
that ends it, and leaves out the rest. An item that ends the watch settles both:
whatever comes behind it counts for nothing (`Forwarded.changes_append_of_some`).

Key definitions: `TypeMeta.IsForeign`, `Erased.IsAkin`, `Forwarded.changes`,
`Forwarded.cause?`, `Forwarded.Concludes`.
Key theorems: `narrow_of_foreign`, `narrow_of_akin`, `Forwarded.changes_append`,
`Forwarded.changes_append_of_some`, `Forwarded.Concludes.send`.
-/
import ClusterKit.Watch.Termination

namespace ClusterKit

/-! ### Foreign types -/

/-- The type is of another kind than the resource `r`, or names another version. -/
def TypeMeta.IsForeign (r : ApiResource) (t : TypeMeta) : Prop :=
  t.kind ≠ r.kind ∨ (t.apiVersion ≠ "" ∧ t.apiVersion ≠ r.apiVersion)

/-- The object does not say that it is of a foreign type. -/
def Erased.IsAkin (r : ApiResource) (o : Erased) : Prop :=
  ∀ t, o.types = some t → ¬ t.IsForeign r

section

variable {K : Kind α} {r : ApiResource} {o : Erased}

theorem TypeMeta.suits_eq_false_iff {t : TypeMeta} : t.suits r = false ↔ t.IsForeign r := by
  unfold suits IsForeign
  rw [Bool.and_eq_false_iff, Bool.or_eq_false_iff, beq_eq_false_iff_ne, beq_eq_false_iff_ne]
  have hempty : t.apiVersion.isEmpty = false ↔ t.apiVersion ≠ "" := by
    rw [← Bool.not_eq_true, String.isEmpty_iff]
  rw [hempty]

theorem narrow_of_foreign {t : TypeMeta} (ht : o.types = some t) (h : t.IsForeign r) :
    narrow K r o = .error (.mismatch t.kind) := by
  have hsuits := TypeMeta.suits_eq_false_iff.mpr h
  simp [narrow, ht, hsuits]

theorem narrow_of_akin (h : o.IsAkin r) : narrow K r o = narrow.restored K o := by
  unfold narrow
  cases ht : o.types with
  | none => rfl
  | some t =>
    cases hsuits : t.suits r with
    | true => exact if_pos hsuits
    | false => exact absurd (TypeMeta.suits_eq_false_iff.mp hsuits) (h t ht)

end

namespace Forwarded

/-! ### Sequences of items -/

variable (K : Kind α) (r : ApiResource)

/-- The changes that a watch passes on, of the items before the first that ends it. -/
def changes : List RawItem → List (Change α)
  | [] => []
  | item :: items =>
    match ofItem K r item with
    | .pass c => c :: changes items
    | .skip => changes items
    | .finish _ => []

/-- Why the first item that ends a watch does so. -/
def cause? : List RawItem → Option Termination
  | [] => none
  | item :: items =>
    match ofItem K r item with
    | .pass _ => cause? items
    | .skip => cause? items
    | .finish t => some t

/-- Left to itself, a watch of the items ends for `t`: an item among them ends it, or
there is none and the source has ended behind them. -/
def Concludes (items : List RawItem) (ended : Bool) (t : Termination) : Prop :=
  cause? K r items = some t ∨ (cause? K r items = none ∧ ended = true ∧ t = .closed)

theorem cause?_append (ys : List RawItem) : ∀ xs : List RawItem,
    cause? K r (xs ++ ys) = (cause? K r xs).or (cause? K r ys)
  | [] => rfl
  | item :: xs => by
    have ih := cause?_append ys xs
    simp only [List.cons_append, cause?]
    split
    · exact ih
    · exact ih
    · rfl

variable {K r}

theorem changes_append {xs : List RawItem} (ys : List RawItem) (h : cause? K r xs = none) :
    changes K r (xs ++ ys) = changes K r xs ++ changes K r ys := by
  induction xs with
  | nil => rfl
  | cons item xs ih =>
    simp only [List.cons_append, changes, cause?] at h ⊢
    split at h
    · rw [ih h]
      rfl
    · exact ih h
    · cases h

theorem changes_append_of_some {xs : List RawItem} {t : Termination} (ys : List RawItem)
    (h : cause? K r xs = some t) : changes K r (xs ++ ys) = changes K r xs := by
  induction xs with
  | nil => cases h
  | cons item xs ih =>
    simp only [List.cons_append, changes, cause?] at h ⊢
    split at h
    · rw [ih h]
    · exact ih h
    · rfl

/-- An item that ends a watch is why it ends, unless it has ended before. -/
theorem cause?_append_finish {item : RawItem} {t : Termination} (xs ys : List RawItem)
    (hf : ofItem K r item = .finish t) :
    cause? K r (xs ++ item :: ys) = some ((cause? K r xs).getD t) := by
  rw [cause?_append]
  cases h : cause? K r xs with
  | none => simp [cause?, hf]
  | some s => rfl

/-- An item that ends a watch, and what comes behind it, is not passed on. -/
theorem changes_append_finish {item : RawItem} {t : Termination} (xs ys : List RawItem)
    (hf : ofItem K r item = .finish t) : changes K r (xs ++ item :: ys) = changes K r xs := by
  cases h : cause? K r xs with
  | none =>
    rw [changes_append _ h]
    simp [changes, hf]
  | some s => exact changes_append_of_some _ h

/-- A change in a watch that has not ended is passed on. -/
theorem changes_append_pass {xs : List RawItem} {item : RawItem} {c : Change α}
    (ys : List RawItem) (h : cause? K r xs = none) (hf : ofItem K r item = .pass c) :
    changes K r (xs ++ item :: ys) = changes K r xs ++ c :: changes K r ys := by
  rw [changes_append _ h]
  simp [changes, hf]

/-- More items do not take back what has been passed on. -/
theorem changes_prefix (K : Kind α) (r : ApiResource) (xs ys : List RawItem) :
    changes K r xs <+: changes K r (xs ++ ys) := by
  cases h : cause? K r xs with
  | none =>
    rw [changes_append ys h]
    exact List.prefix_append _ _
  | some t => simp [changes_append_of_some ys h]

theorem length_changes_le (K : Kind α) (r : ApiResource) (items : List RawItem) :
    (changes K r items).length ≤ items.length := by
  induction items with
  | nil => exact Nat.le_refl _
  | cons item items ih =>
    unfold changes
    split
    · exact Nat.succ_le_succ ih
    · exact Nat.le_succ_of_le ih
    · exact Nat.zero_le _

theorem snoc_pass {xs : List RawItem} {item : RawItem} {c : Change α} (h : cause? K r xs = none)
    (hf : ofItem K r item = .pass c) :
    cause? K r (xs ++ [item]) = none ∧ changes K r (xs ++ [item]) = changes K r xs ++ [c] := by
  refine ⟨?_, changes_append_pass [] h hf⟩
  rw [cause?_append, h]
  simp [cause?, hf]

theorem snoc_skip {xs : List RawItem} {item : RawItem} (h : cause? K r xs = none)
    (hf : ofItem K r item = .skip) :
    cause? K r (xs ++ [item]) = none ∧ changes K r (xs ++ [item]) = changes K r xs := by
  rw [cause?_append, h, changes_append _ h]
  simp [cause?, changes, hf]

section

variable {items : List RawItem} {item : RawItem} {ended : Bool} {t : Termination}

/-- A watch does not conclude in two ways. -/
theorem Concludes.unique {t' : Termination} (h : Concludes K r items ended t)
    (h' : Concludes K r items ended t') : t = t' := by
  rcases h with h | ⟨hn, -, rfl⟩
  · rcases h' with h' | ⟨hn, -, -⟩
    · exact Option.some.inj (h.symm.trans h')
    · cases h.symm.trans hn
  · rcases h' with h' | ⟨-, -, rfl⟩
    · cases h'.symm.trans hn
    · rfl

/-- A source that goes on sending does not change how a watch ends. -/
theorem Concludes.send (h : Concludes K r items false t) (item : RawItem) :
    Concludes K r (items ++ [item]) false t ∧
      changes K r (items ++ [item]) = changes K r items := by
  rcases h with h | ⟨-, hf, -⟩
  · refine ⟨.inl ?_, changes_append_of_some _ h⟩
    rw [cause?_append, h]
    rfl
  · cases hf

/-- Nor does a source that ends. -/
theorem Concludes.close (h : Concludes K r items ended t) : Concludes K r items true t := by
  rcases h with h | ⟨h, -, ht⟩
  · exact .inl h
  · exact .inr ⟨h, rfl, ht⟩

end

end Forwarded
end ClusterKit
