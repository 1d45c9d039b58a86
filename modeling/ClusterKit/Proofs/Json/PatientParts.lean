/-
# Lists and objects, part by part

Readers of lists, of members and of tables are patient if those of their parts are, for
they all take one part after the other.

Key definitions: `Reader.collect`, `Reader.named`.
Key theorems: `Reader.Patient.items`, `Reader.patient_members`, `Reader.Patient.table`.
-/
import ClusterKit.Proofs.Json.Patient

namespace ClusterKit
namespace Json
namespace Reader

open Draft (BrokenOff)

/-! ### Lists -/

section

variable {r : Reader α} {deep : Bool} {ds ds' : List Draft} {close' : Option ReadError}

/-- A list that is broken off, part by part. -/
theorem Waits.walk_list {step : σ → Draft → Except ReadError σ} {finish : σ → Except ReadError β}
    (hstep : ∀ s, Waits (step s))
    (hd : BrokenOff (.list deep ds (some .truncated)) (.list deep ds' close')) {s : σ} {b : β}
    (hok : walk step finish close' ds' s = .ok b) :
    walk step finish (some .truncated) ds s = .error .truncated := by
  cases hd with
  | listEnd => exact walk_end hok
  | listItem hxy => exact walk_part (fun s _ ha => (hstep s).waits hxy ha) hok
  | listNumber hxy => exact walk_number (fun s _ ha => (hstep s).shortens hxy ha) hok

/-- The readers of lists and of members collect what each part says. -/
def each (f : δ → Except ReadError α) (close : Option ReadError) :
    List δ → Except ReadError (List α)
  | [] => match close with
    | none => .ok []
    | some e => .error e
  | d :: ds => do
    let v ← f d
    let vs ← each f close ds
    return v :: vs

/-- Take what one more part says. -/
def collect (f : δ → Except ReadError α) (as : List α) (d : δ) : Except ReadError (List α) := do
  let a ← f d
  return a :: as

theorem walk_collect (f : δ → Except ReadError α) (close : Option ReadError) (ds : List δ)
    (as : List α) : walk (collect f) (fun as => .ok as.reverse) close ds as =
      do let bs ← each f close ds; return as.reverse ++ bs := by
  induction ds generalizing as with
  | nil =>
    cases close with
    | none => simp [walk, each]
    | some e => rfl
  | cons d ds ih =>
    rw [walk, each, collect]
    cases f d with
    | error e => rfl
    | ok a =>
      simp only [ok_bind, pure_eq_ok] at ih ⊢
      rw [ih]
      cases each f close ds with
      | error e => rfl
      | ok bs => simp

theorem each_eq_walk (f : δ → Except ReadError α) (close : Option ReadError) (ds : List δ) :
    each f close ds = walk (collect f) (fun as => .ok as.reverse) close ds [] := by
  rw [walk_collect]
  cases each f close ds <;> rfl

theorem itemsOf_eq_walk (r : Reader α) (close : Option ReadError) (ds : List Draft) :
    itemsOf r close ds = walk (collect r) (fun as => .ok as.reverse) close ds [] := by
  rw [← each_eq_walk]
  induction ds with
  | nil => rfl
  | cons d ds ih => rw [itemsOf, each, ih]

theorem Patient.collect (h : r.Patient) (as : List α) : Patient (Reader.collect r as) :=
  h.map fun _ _ => ⟨_, rfl⟩

theorem strict_items (r : Reader α) : (items r).Strict := fun _ _ _ => rfl

theorem Patient.items (h : r.Patient) : (Reader.items r).Patient where
  waits := by
    refine (strict_items r).waits (fun {deep ds ds' close' a} hd hok => ?_)
      (fun {_ _ _ _ _} _ hok => nomatch hok)
    unfold Reader.items at hok ⊢
    dsimp only at hok ⊢
    split at hok
    · cases hok
    · rename_i hdeep
      rw [if_neg hdeep]
      rw [itemsOf_eq_walk] at hok ⊢
      exact Waits.walk_list (fun as => (h.collect as).toWaits) hd hok
  shortens hxy hok := by
    cases hxy <;> cases hok
  honest d hd := by
    unfold Reader.items at hd
    split at hd
    · split at hd
      · cases hd
      · rw [itemsOf_eq_walk] at hd
        exact unfinished_of_walk_list _ (fun as d _ => (h.collect as).honest d) hd fun _ => nofun
    · cases hd
      exact .value _ _
    · cases hd

end

/-! ### Members -/

section

variable {deep : Bool} {ms ms' : List (Name × Draft)} {close close' : Option ReadError}

/-- An object that is broken off, member by member. -/
theorem Waits.walk_fields {step : σ → Name × Draft → Except ReadError σ}
    {finish : σ → Except ReadError β} (hstep : ∀ s k, Waits fun d => step s (k, d))
    (hname : ∀ {s e k y a}, (e = .truncated ∨ ∃ e', k = .broken e') → step s (k, y) = .ok a →
      step s (.broken e, .dead .truncated) = .error .truncated)
    (hd : BrokenOff (.fields deep ms (some .truncated)) (.fields deep ms' close')) {s : σ} {b : β}
    (hok : walk step finish close' ms' s = .ok b) :
    walk step finish (some .truncated) ms s = .error .truncated := by
  cases hd with
  | fieldsEnd => exact walk_end hok
  | fieldsMember hxy deep k => exact walk_part (fun s _ ha => (hstep s k).waits hxy ha) hok
  | fieldsNumber hxy deep k => exact walk_number (fun s _ ha => (hstep s k).shortens hxy ha) hok
  | fieldsName he => exact walk_part (fun s _ ha => hname he ha) hok

/-- Take one member by its name. -/
def named (f : σ → String → Draft → Except ReadError σ) (s : σ) (m : Name × Draft) :
    Except ReadError σ := do
  let k ← m.1.read
  f s k m.2

theorem foldMembers_eq_walk (f : σ → String → Draft → Except ReadError σ)
    (close : Option ReadError) (ms : List (Name × Draft)) (s : σ) :
    foldMembers f close ms s = walk (named f) .ok close ms s := by
  induction ms generalizing s with
  | nil => rfl
  | cons m ms ih =>
    rw [foldMembers, walk, named, bind_assoc]
    simp only [ih]

theorem Waits.named {f : σ → String → Draft → Except ReadError σ} (hf : ∀ s k, Waits (f s k))
    (s : σ) (k : Name) : Waits fun d => Reader.named f s (k, d) := by
  cases k with
  | text k => exact hf s k
  | broken e => exact waits_error e

theorem named_of_broken {f : σ → String → Draft → Except ReadError σ} {s a : σ} {e : ReadError}
    {k : Name} {x y : Draft} (he : e = .truncated ∨ ∃ e', k = .broken e')
    (hok : named f s (k, y) = .ok a) : named f s (.broken e, x) = .error .truncated := by
  rcases he with rfl | ⟨e', rfl⟩
  · rfl
  · cases hok

theorem strict_members (f : σ → String → Draft → Except ReadError σ) (s : σ) :
    (members f s).Strict := fun _ _ _ => rfl

theorem numberFree_members (f : σ → String → Draft → Except ReadError σ) (s : σ) :
    (members f s).NumberFree := (strict_members f s).numberFree nofun

theorem waits_members {f : σ → String → Draft → Except ReadError σ} (hf : ∀ s k, Waits (f s k))
    (s : σ) : Waits (members f s) where
  waits := by
    refine (strict_members f s).waits (fun {_ _ _ _ _} _ hok => nomatch hok)
      (fun {deep ms ms' close' a} hd hok => ?_)
    unfold members at hok ⊢
    dsimp only at hok ⊢
    split at hok
    · cases hok
    · rename_i hdeep
      rw [if_neg hdeep]
      rw [foldMembers_eq_walk] at hok ⊢
      exact Waits.walk_fields (Waits.named hf) named_of_broken hd hok
  shortens := NumberFree.shortens (numberFree_members f s)

section

variable {f : σ → String → Draft → Except ReadError σ} {I : σ → Prop} {s : σ}
  (hs : I s) (hI : ∀ s k d t, I s → f s k d = .ok t → I t) (hf : ∀ s k, I s → Honest (f s k))

include hs hI hf

/-- What holds of all that has been taken so far tells when a member is missed. -/
theorem honest_foldMembers (deep : Bool) (h : foldMembers f close ms s = .error .truncated) :
    (Draft.fields deep ms close).Unfinished := by
  rw [foldMembers_eq_walk] at h
  have hnamed : ∀ s m t, I s → named f s m = .ok t → I t := by
    intro s m t hs hm
    obtain ⟨k, -, hk⟩ := bind_eq_ok.mp hm
    exact hI s k m.2 t hs hk
  refine unfinished_of_walk_fields deep hs hnamed (fun u k d hu _ hmiss => ?_) h fun _ => nofun
  cases k with
  | text k => exact .inr (hf u k hu d hmiss)
  | broken e =>
    cases hmiss
    exact .inl rfl

theorem honest_members : Honest (members f s) := by
  intro d hd
  unfold members at hd
  split at hd
  · split at hd
    · cases hd
    · exact honest_foldMembers hs hI hf _ hd
  · cases hd
    exact .value _ _
  · cases hd

end

theorem closed_of_members {d : Draft} {a : σ} (h : members f s d = .ok a) : d.Closed := by
  unfold members at h
  split at h
  · split at h
    · cases h
    · rw [foldMembers_eq_walk] at h
      exact close_of_walk h
  · cases h
  · cases h

theorem patient_members {f : σ → String → Draft → Except ReadError σ}
    (hf : ∀ s k, Patient (f s k)) (s : σ) : Patient (members f s) :=
  ⟨waits_members (fun s k => (hf s k).toWaits) s,
    honest_members (I := fun _ => True) trivial (fun _ _ _ _ _ _ => trivial)
      fun s k _ => (hf s k).honest⟩

theorem strict_table (r : Reader α) : (table r).Strict := strict_members _ _

theorem Patient.table {r : Reader α} (h : r.Patient) : (Reader.table r).Patient :=
  patient_members (fun _ _ => h.map fun _ _ => ⟨_, rfl⟩) _

end

end Reader
end Json
end ClusterKit
