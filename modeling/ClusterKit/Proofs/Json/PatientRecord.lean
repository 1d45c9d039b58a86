/-
# Records that wait

What is passed over is walked through all the same, so that what is missing in it is
missed. So a record is patient if the readers of its fields are, in either of its forms.

Key theorems: `Reader.patient_skip`, `Reader.patient_record`.
-/
import ClusterKit.Proofs.Json.PatientParts

namespace ClusterKit
namespace Json
namespace Reader

open Draft (BrokenOff Shorter)

/-! ### Passing over -/

theorem skipItems_eq_walk (close : Option ReadError) (ds : List Draft) :
    skipItems close ds = walk (fun _ d => skip d) .ok close ds () := by
  induction ds with
  | nil => cases close <;> rfl
  | cons d ds ih =>
    rw [skipItems, walk, ih]

theorem skipMembers_eq_walk (close : Option ReadError) (ms : List (Name × Draft)) :
    skipMembers close ms = walk (fun _ m => skip m.2) .ok close ms () := by
  induction ms with
  | nil => cases close <;> rfl
  | cons m ms ih =>
    rw [skipMembers, walk, ih]

theorem skip_of_shorter {x y : Draft} (h : Shorter x y) : skip x = .ok () := by
  cases h <;> rfl

theorem skip_of_brokenOff {d d' : Draft} (h : BrokenOff d d') (hok : skip d' = .ok ()) :
    skip d = .error .truncated := by
  induction h with
  | nothing => rfl
  | lone => rfl
  | word => rfl
  | listEnd deep xs ys close =>
    rw [skip, skipItems_eq_walk] at hok ⊢
    exact walk_end hok
  | listItem _ deep xs ys close ih =>
    rw [skip, skipItems_eq_walk] at hok ⊢
    exact walk_part (fun _ _ hy => ih hy) hok
  | listNumber hxy deep xs ys close =>
    rw [skip, skipItems_eq_walk] at hok ⊢
    exact walk_number (fun _ _ _ => ⟨(), skip_of_shorter hxy⟩) hok
  | fieldsEnd deep xs ys close =>
    rw [skip, skipMembers_eq_walk] at hok ⊢
    exact walk_end hok
  | fieldsMember _ deep k xs ys close ih =>
    rw [skip, skipMembers_eq_walk] at hok ⊢
    exact walk_part (fun _ _ hy => ih hy) hok
  | fieldsNumber hxy deep k xs ys close =>
    rw [skip, skipMembers_eq_walk] at hok ⊢
    exact walk_number (fun _ _ _ => ⟨(), skip_of_shorter hxy⟩) hok
  | fieldsName he deep xs y ys close =>
    rw [skip, skipMembers_eq_walk] at hok ⊢
    exact walk_part (fun _ _ _ => rfl) hok

theorem honest_skip : Honest skip := by
  intro d
  induction d using Draft.induct with
  | scalar v => exact nofun
  | broken n v s =>
    intro h
    cases s with
    | none => cases h
    | some e =>
      cases h
      exact .skip n v
  | list deep ds close ih =>
    intro h
    rw [skip, skipItems_eq_walk] at h
    exact unfinished_of_walk_list deep (fun _ d hd => ih d hd) h fun _ => nofun
  | fields deep ms close ih =>
    intro h
    rw [skip, skipMembers_eq_walk] at h
    exact unfinished_of_walk_fields (I := fun _ => True) deep trivial (fun _ _ _ _ _ => trivial)
      (fun _ k d _ hmem hmiss => .inr (ih k d hmem hmiss)) h fun _ => nofun

theorem patient_skip : Patient skip :=
  ⟨⟨skip_of_brokenOff, fun hxy _ => ⟨(), skip_of_shorter hxy⟩⟩, honest_skip⟩

/-! ### Records -/

section

variable {fields : List Field} {read : String → Draft → σ → Except ReadError σ}

theorem patient_takeField (hread : ∀ k s, Patient fun d => read k d s) (s : σ × List String)
    (k : String) : Patient (takeField fields read s k) := by
  unfold takeField
  split
  · split
    · exact patient_error nofun
    · exact (hread k s.1).map fun _ _ => ⟨_, rfl⟩
  · exact patient_skip.map fun _ _ => ⟨_, rfl⟩

/-- Take the next field of a list. -/
def nextField (read : String → Draft → σ → Except ReadError σ) (s : List Field × σ) (d : Draft) :
    Except ReadError (List Field × σ) :=
  match s.1 with
  | [] => .error .malformed
  | f :: fs => do
    let t ← read f.name d s.2
    return (fs, t)

/-- What is left of the fields at the end of a list. -/
def lastField (s : List Field × σ) : Except ReadError σ :=
  if s.1.all Field.mayEnd then .ok s.2 else .error .mismatch

theorem lastField_ne_truncated (s : List Field × σ) : lastField s ≠ .error .truncated := by
  unfold lastField
  split <;> exact nofun

theorem takeInOrder_eq_walk (close : Option ReadError) (fs : List Field) (ds : List Draft) (s : σ) :
    takeInOrder read close fs ds s = walk (nextField read) lastField close ds (fs, s) := by
  induction ds generalizing fs s with
  | nil =>
    induction fs with
    | nil => cases close <;> rfl
    | cons f fs ih =>
      cases close with
      | none =>
        rw [takeInOrder, walk, lastField]
        by_cases hf : f.mayEnd = true
        · rw [if_pos hf, ih, walk, lastField, List.all_cons, hf, Bool.true_and]
        · rw [if_neg hf, List.all_cons, Bool.eq_false_iff.mpr hf, Bool.false_and]
          rfl
      | some e => rfl
  | cons d ds ih =>
    cases fs with
    | nil => rfl
    | cons f fs =>
      rw [takeInOrder, walk, nextField]
      simp only [ih, bind_assoc, pure_eq_ok, ok_bind]

theorem patient_nextField (hread : ∀ k s, Patient fun d => read k d s) (s : List Field × σ) :
    Patient (nextField read s) := by
  unfold nextField
  split
  · exact patient_error nofun
  · exact (hread _ _).map fun _ _ => ⟨_, rfl⟩

variable {init : σ} {finish : σ → Except ReadError α}

theorem strict_record : (record fields read init finish).Strict := fun _ _ _ => rfl

theorem record_list (ds : List Draft) (close : Option ReadError) :
    record fields read init finish (.list false ds close) =
      walk (nextField read) lastField close ds (fields, init) >>= finish := by
  rw [← takeInOrder_eq_walk]
  rfl

theorem record_fields (ms : List (Name × Draft)) (close : Option ReadError) :
    record fields read init finish (.fields false ms close) =
      walk (named (takeField fields read)) .ok close ms (init, []) >>= fun s => finish s.1 := by
  rw [← foldMembers_eq_walk]
  rfl

theorem waits_record (hread : ∀ k s, Patient fun d => read k d s) :
    Waits (record fields read init finish) where
  waits := by
    refine strict_record.waits (fun {deep ds ds' close' a} hd hok => ?_)
      (fun {deep ms ms' close' a} hd hok => ?_)
    · cases deep with
      | true => cases hok
      | false =>
        rw [record_list] at hok ⊢
        obtain ⟨s, hs, -⟩ := bind_eq_ok.mp hok
        rw [Waits.walk_list (fun s => (patient_nextField hread s).toWaits) hd hs]
        rfl
    · cases deep with
      | true => cases hok
      | false =>
        rw [record_fields] at hok ⊢
        obtain ⟨s, hs, -⟩ := bind_eq_ok.mp hok
        have hfield : ∀ s k, Waits (takeField fields read s k) :=
          fun s k => (patient_takeField hread s k).toWaits
        rw [Waits.walk_fields (Waits.named hfield) named_of_broken hd hs]
        rfl
  shortens hxy hok := by
    cases hxy <;> cases hok

theorem honest_record (hread : ∀ k s, Patient fun d => read k d s)
    (hfinish : ∀ s, finish s ≠ .error .truncated) : Honest (record fields read init finish) := by
  intro d hd
  cases d with
  | scalar v => cases hd
  | broken n v s =>
    cases hd
    exact .value n s
  | list deep ds close =>
    cases deep with
    | true => cases hd
    | false =>
      rw [record_list] at hd
      rcases bind_eq_error.mp hd with hds | ⟨s, -, hs⟩
      · exact unfinished_of_walk_list false (fun s d _ => (patient_nextField hread s).honest d) hds
          lastField_ne_truncated
      · exact absurd hs (hfinish s)
  | fields deep ms close =>
    cases deep with
    | true => cases hd
    | false =>
      rw [record_fields] at hd
      rcases bind_eq_error.mp hd with hms | ⟨s, -, hs⟩
      · rw [← foldMembers_eq_walk] at hms
        exact honest_foldMembers (I := fun _ => True) trivial (fun _ _ _ _ _ _ => trivial)
          (fun s k _ => (patient_takeField hread s k).honest) false hms
      · exact absurd hs (hfinish s.1)

/-- A record is patient if its fields are, whichever form it has. -/
theorem patient_record (hread : ∀ k s, Patient fun d => read k d s)
    (hfinish : ∀ s, finish s ≠ .error .truncated) : Patient (record fields read init finish) :=
  ⟨waits_record hread, honest_record hread hfinish⟩

end

end Reader
end Json
end ClusterKit
