/-
# Any value

The reader of any value is patient. What it takes has nothing missing in it.

Key theorems: `Reader.patient_value`, `Reader.value_ne_ok_of_unfinished`.
-/
import ClusterKit.Proofs.Json.PatientParts

namespace ClusterKit
namespace Json
namespace Reader

open Draft (BrokenOff Shorter)

theorem valueItems_eq_walk (close : Option ReadError) (ds : List Draft) :
    valueItems close ds = walk (collect value) (fun as => .ok as.reverse) close ds [] := by
  rw [← each_eq_walk]
  induction ds with
  | nil => rfl
  | cons d ds ih => rw [valueItems, each, ih]

/-- Read the name and the value of a member. -/
def memberValue (m : Name × Draft) : Except ReadError (String × Json) := do
  let k ← m.1.read
  let v ← value m.2
  return (k, v)

theorem valueMembers_eq_walk (close : Option ReadError) (ms : List (Name × Draft)) :
    valueMembers close ms = walk (collect memberValue) (fun as => .ok as.reverse) close ms [] := by
  rw [← each_eq_walk]
  induction ms with
  | nil => rfl
  | cons m ms ih =>
    rw [valueMembers, each, memberValue, ih]
    simp only [bind_assoc, pure_eq_ok, ok_bind]

theorem value_of_shorter {x y : Draft} {v : Json} (h : Shorter x y) (hok : value y = .ok v) :
    ∃ w, value x = .ok w := by
  cases h with
  | number => exact ⟨_, rfl⟩
  | overflow => cases hok
  | overflown => cases hok

/-- What is missed in a part is missed where parts are collected. -/
theorem collect_of_part {f : δ → Except ReadError α} {x y : δ}
    (h : ∀ a, f y = .ok a → f x = .error .truncated) (as bs : List α)
    (hok : collect f as y = .ok bs) : collect f as x = .error .truncated := by
  obtain ⟨a, ha, -⟩ := bind_eq_ok.mp hok
  rw [collect, h a ha]
  rfl

theorem collect_of_number {f : δ → Except ReadError α} {x y : δ}
    (h : ∀ a, f y = .ok a → ∃ b, f x = .ok b) (as bs : List α)
    (hok : collect f as y = .ok bs) : ∃ cs, collect f as x = .ok cs := by
  obtain ⟨a, ha, -⟩ := bind_eq_ok.mp hok
  obtain ⟨b, hb⟩ := h a ha
  exact ⟨b :: as, by rw [collect, hb]; rfl⟩

theorem memberValue_eq_ok {k : Name} {d : Draft} {e : String × Json} :
    memberValue (k, d) = .ok e ↔ k.read = .ok e.1 ∧ value d = .ok e.2 := by
  unfold memberValue
  cases k.read <;> cases value d <;> simp [Prod.ext_iff]

section

variable {deep : Bool} {close : Option ReadError} {v : Json}

/-- What is missed in the parts of a list is missed in the list. -/
theorem value_of_items {ds ds' : List Draft} (hok : value (.list deep ds' close) = .ok v)
    (h : ∀ vs, valueItems close ds' = .ok vs →
      valueItems (some .truncated) ds = .error .truncated) :
    value (.list deep ds (some .truncated)) = .error .truncated := by
  cases deep with
  | true => cases hok
  | false =>
    obtain ⟨vs, hvs, -⟩ := bind_eq_ok.mp hok
    exact congrArg (· >>= _) (h vs hvs)

/-- What is missed in the members of an object is missed in the object. -/
theorem value_of_members {ms ms' : List (Name × Draft)}
    (hok : value (.fields deep ms' close) = .ok v)
    (h : ∀ vs, valueMembers close ms' = .ok vs →
      valueMembers (some .truncated) ms = .error .truncated) :
    value (.fields deep ms (some .truncated)) = .error .truncated := by
  cases deep with
  | true => cases hok
  | false =>
    obtain ⟨vs, hvs, -⟩ := bind_eq_ok.mp hok
    exact congrArg (· >>= _) (h vs hvs)

end

theorem value_of_brokenOff {d d' : Draft} {v : Json} (h : BrokenOff d d') (hok : value d' = .ok v) :
    value d = .error .truncated := by
  induction h generalizing v with
  | nothing => rfl
  | lone => cases hok
  | word => rfl
  | listEnd =>
    refine value_of_items hok fun vs hvs => ?_
    rw [valueItems_eq_walk] at hvs ⊢
    exact walk_end hvs
  | listItem _ _ _ _ _ ih =>
    refine value_of_items hok fun vs hvs => ?_
    rw [valueItems_eq_walk] at hvs ⊢
    exact walk_part (collect_of_part fun _ hy => ih hy) hvs
  | listNumber hxy =>
    refine value_of_items hok fun vs hvs => ?_
    rw [valueItems_eq_walk] at hvs ⊢
    exact walk_number (collect_of_number fun _ hy => value_of_shorter hxy hy) hvs
  | fieldsEnd =>
    refine value_of_members hok fun vs hvs => ?_
    rw [valueMembers_eq_walk] at hvs ⊢
    exact walk_end hvs
  | fieldsMember _ _ k _ _ _ ih =>
    refine value_of_members hok fun vs hvs => ?_
    rw [valueMembers_eq_walk] at hvs ⊢
    refine walk_part (collect_of_part fun e hy => ?_) hvs
    obtain ⟨hk, hy⟩ := memberValue_eq_ok.mp hy
    rw [memberValue, hk, ih hy]
    rfl
  | fieldsNumber hxy _ k =>
    refine value_of_members hok fun vs hvs => ?_
    rw [valueMembers_eq_walk] at hvs ⊢
    refine walk_number (collect_of_number fun e hy => ?_) hvs
    obtain ⟨hk, hy⟩ := memberValue_eq_ok.mp hy
    obtain ⟨w, hw⟩ := value_of_shorter hxy hy
    exact ⟨(e.1, w), memberValue_eq_ok.mpr ⟨hk, hw⟩⟩
  | fieldsName he =>
    refine value_of_members hok fun vs hvs => ?_
    rw [valueMembers_eq_walk] at hvs ⊢
    refine walk_part (collect_of_part fun e hy => ?_) hvs
    obtain ⟨hk, -⟩ := memberValue_eq_ok.mp hy
    rcases he with rfl | ⟨e', rfl⟩
    · rfl
    · cases hk

/-- What is missed where parts are collected is missed in a part. -/
theorem collect_eq_error {f : δ → Except ReadError α} {as : List α} {x : δ} {e : ReadError}
    (h : collect f as x = .error e) : f x = .error e := by
  rcases bind_eq_error.mp h with hx | ⟨a, -, ha⟩
  · exact hx
  · cases ha

theorem honest_value : Honest value := by
  intro d
  induction d using Draft.induct with
  | scalar v => exact nofun
  | broken n v s =>
    intro h
    cases h
    exact .value n s
  | list deep ds close ih =>
    intro h
    cases deep with
    | true => cases h
    | false =>
      rcases bind_eq_error.mp h with hds | ⟨vs, -, hvs⟩
      · rw [valueItems_eq_walk] at hds
        exact unfinished_of_walk_list false (fun _ d hd hmiss => ih d hd (collect_eq_error hmiss))
          hds fun _ => nofun
      · cases hvs
  | fields deep ms close ih =>
    intro h
    cases deep with
    | true => cases h
    | false =>
      rcases bind_eq_error.mp h with hms | ⟨vs, -, hvs⟩
      · rw [valueMembers_eq_walk] at hms
        refine unfinished_of_walk_fields (I := fun _ => True) false trivial
          (fun _ _ _ _ _ => trivial) (fun _ k d _ hmem hmiss => ?_) hms fun _ => nofun
        rcases bind_eq_error.mp (collect_eq_error hmiss) with hk | ⟨k', -, hd⟩
        · cases k with
          | text k => cases hk
          | broken e =>
            cases hk
            exact .inl rfl
        · rcases bind_eq_error.mp hd with hd | ⟨v, -, hv⟩
          · exact .inr (ih k d hmem hd)
          · cases hv
      · cases hvs

theorem patient_value : Patient value :=
  ⟨⟨value_of_brokenOff, value_of_shorter⟩, honest_value⟩

theorem patient_canonical : Patient canonical := by
  refine patient_value.of_map (f := Subtype.val) fun d => ?_
  unfold canonical
  split <;> rename_i h <;> exact h.symm


/-- A list that has a value is closed, and all of its parts have values. -/
theorem parts_of_value_list {deep : Bool} {ds : List Draft} {close : Option ReadError} {v : Json}
    (h : value (.list deep ds close) = .ok v) :
    close = none ∧ ∀ d ∈ ds, ∃ w, value d = .ok w := by
  cases deep with
  | true => cases h
  | false =>
    obtain ⟨vs, hvs, -⟩ := bind_eq_ok.mp h
    rw [valueItems_eq_walk] at hvs
    refine ⟨close_of_walk hvs, fun d hd => ?_⟩
    obtain ⟨u, us, hstep⟩ := step_of_walk hvs hd
    obtain ⟨w, hw, -⟩ := bind_eq_ok.mp hstep
    exact ⟨w, hw⟩

/-- An object that has a value is closed, and all of its members have names and values. -/
theorem parts_of_value_fields {deep : Bool} {ms : List (Name × Draft)} {close : Option ReadError}
    {v : Json} (h : value (.fields deep ms close) = .ok v) :
    close = none ∧ ∀ k d, (k, d) ∈ ms → ∃ e : String × Json,
      k.read = .ok e.1 ∧ value d = .ok e.2 := by
  cases deep with
  | true => cases h
  | false =>
    obtain ⟨vs, hvs, -⟩ := bind_eq_ok.mp h
    rw [valueMembers_eq_walk] at hvs
    refine ⟨close_of_walk hvs, fun k d hmem => ?_⟩
    obtain ⟨u, us, hstep⟩ := step_of_walk hvs hmem
    obtain ⟨e, he, -⟩ := bind_eq_ok.mp hstep
    exact ⟨e, memberValue_eq_ok.mp he⟩

/-- What is unfinished has no value. -/
theorem value_ne_ok_of_unfinished {d : Draft} (h : d.Unfinished) (v : Json) : value d ≠ .ok v := by
  induction h generalizing v with
  | name v' s => exact nofun
  | value n s => exact nofun
  | skip n v' => exact nofun
  | listEnd deep ds => exact fun hok => nomatch (parts_of_value_list hok).1
  | item hmem _ ih =>
    intro hok
    obtain ⟨w, hw⟩ := (parts_of_value_list hok).2 _ hmem
    exact ih w hw
  | fieldsEnd deep ms => exact fun hok => nomatch (parts_of_value_fields hok).1
  | memberName hmem =>
    intro hok
    obtain ⟨e, hname, -⟩ := (parts_of_value_fields hok).2 _ _ hmem
    cases hname
  | member hmem _ ih =>
    intro hok
    obtain ⟨e, -, hw⟩ := (parts_of_value_fields hok).2 _ _ hmem
    exact ih e.2 hw

end Reader
end Json
end ClusterKit
