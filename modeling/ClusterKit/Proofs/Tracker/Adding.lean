/-
# Adding is creating or replacing

To be added, an object needs no more than a name. Where its key is free an add does what
a create does, and where it is not, what an update does that says no version, whichever
one the object says. So an add fails just if a create would find the object invalid, and
a run of calls comes to the same tracker, with the same events for every subscription, if
in place of each add the create or update is called that it comes to.

Key definitions: `Tracker.AddsAs`, `Tracker.Call.withoutAdd`, `Tracker.withoutAdds`.
Key theorems: `Tracker.addsAs_create`, `Tracker.addsAs_update`, `Tracker.run_withoutAdds`,
`Tracker.adds_create_or_replace`.
-/
import ClusterKit.Proofs.Tracker.History
import ClusterKit.Proofs.Tracker.KeyedMap

namespace ClusterKit
namespace Tracker

/-! ### Objects without their version -/

section

variable {r : GroupVersionResource} {ns : String} {o : Erased}

/-- The version of an object has no part in where it is placed. -/
theorem place_atVersion (v : Option String) :
    place r ns (atVersion v o) = (place r ns o).map fun x => (x.1, atVersion v x.2) := by
  unfold place atVersion
  dsimp only
  split
  · rfl
  · split
    · rfl
    · split <;> rfl

/-- An object is placed under its key, or found invalid. -/
theorem place_cases (r : GroupVersionResource) (ns : String) (o : Erased) :
    (∃ o', place r ns o = .ok (effectiveKey ns o, o')) ∨
      ∃ s : Status, s.isInvalid = true ∧ place r ns o = .error s := by
  by_cases h : Placeable ns o
  · obtain ⟨o', hplace, -⟩ := place_of_placeable (r := r) h
    exact .inl ⟨o', hplace⟩
  · obtain ⟨cause, hplace⟩ := place_of_not_placeable (r := r) h
    exact .inr ⟨_, rfl, hplace⟩

end

variable (t : Tracker) (r : GroupVersionResource) (o : Erased)

theorem add_atVersion (v : Option String) : t.add r (atVersion v o) = t.add r o := by
  unfold add
  rw [place_atVersion]
  cases place r "" o <;> rfl

/-! ### Invalid objects -/

section

variable {t r o} {ns : String} {s : Status}

theorem add_of_invalid (hplace : place r "" o = .error s) : t.add r o = .error s := by
  rw [add, hplace, error_bind]

theorem create_of_invalid (hplace : place r ns o = .error s) (p : PostParams) :
    t.create r ns o p = .error s := by
  rw [create, hplace, error_bind]

theorem update_of_invalid (hplace : place r ns o = .error s) (p : PostParams) :
    t.update r ns o p = .error s := by
  rw [update, hplace, error_bind]

end

/-! ### One add -/

/-- To add the object comes to the same as the write: what is at its key changes to the object
as the write answers with it, which is the next mutation of the tracker. -/
def AddsAs (change : Erased → Change Erased) (write : Except Status (Erased × Tracker)) : Prop :=
  ∃ stored, let m : Mutation := ⟨r, effectiveKey "" o, change stored⟩
    m.Fits t ∧ stored.SameBody o ∧
      write = .ok (stored, t.commit m) ∧ t.add r o = .ok (t.commit m)

section

variable {t r o} {o' : Erased} {p : PostParams}
  (hplace : place r "" o = .ok (effectiveKey "" o, o')) (hp : p.dryRun = false)

include hplace hp

/-- Where there is nothing, to add is to create. -/
theorem addsAs_create (hf : t.find? r (effectiveKey "" o) = none) :
    t.AddsAs r o .added (t.create r "" o p) := by
  have hchange : ∀ s, Change.between? (t.find? r (effectiveKey "" o)) (some s) =
      some (.added s) := by
    intro s
    rw [hf]
    rfl
  obtain ⟨hfits, hbody⟩ := fits_of_place hplace (fun _ => rfl) hchange
  refine ⟨_, hfits, hbody, ?_, ?_⟩
  · rw [create_of_absent hplace hf hp, store_added]
  · simp only [add, hplace, ok_bind, hf, Option.isSome_none, Bool.false_eq_true, if_false,
      store_added, pure_eq_ok]

/-- Where there is something, to add is to put the object in its place, whatever its version. -/
theorem addsAs_update {old : Erased} (hf : t.find? r (effectiveKey "" o) = some old) :
    t.AddsAs r o .modified (t.update r "" (atVersion none o) p) := by
  have hchange : ∀ s, Change.between? (t.find? r (effectiveKey "" o)) (some s) =
      some (.modified s) := by
    intro s
    rw [hf]
    rfl
  have hplace' : place r "" (atVersion none o) =
      .ok (effectiveKey "" o, atVersion none o') := by
    rw [place_atVersion, hplace]
    rfl
  obtain ⟨hfits, hbody⟩ := fits_of_place hplace (fun _ => rfl) hchange
  refine ⟨_, hfits, hbody, ?_, ?_⟩
  · rw [update_of_present hplace' hf (claimedVersion_of_unversioned rfl) hp, store_modified]
    rfl
  · simp only [add, hplace, ok_bind, hf, Option.isSome_some, if_true, store_modified, pure_eq_ok]

end

/-- An add fails just if a create would find the object invalid. -/
theorem add_eq_error_iff (p : PostParams) (s : Status) :
    t.add r o = .error s ↔ t.create r "" o p = .error s ∧ s.isInvalid = true := by
  rcases place_cases r "" o with ⟨o', hplace⟩ | ⟨s', hinvalid, hplace⟩
  · have hadd : t.add r o ≠ .error s := by
      simp [add, hplace]
    refine iff_of_false hadd fun ⟨hcreate, hs⟩ => ?_
    -- an object that can be placed is refused for its key alone
    cases hf : t.find? r (effectiveKey "" o) with
    | some old =>
      rw [create_of_present hplace hf] at hcreate
      cases hcreate
      cases hs
    | none =>
      cases hp : p.dryRun <;> simp [create, hplace, hf, hp] at hcreate
  · rw [add_of_invalid hplace, create_of_invalid hplace]
    constructor
    · rintro ⟨⟩
      exact ⟨rfl, hinvalid⟩
    · rintro ⟨⟨⟩, -⟩
      rfl

/-! ### Runs -/

/-- The call that an add comes to, and any other call itself. -/
def Call.withoutAdd (t : Tracker) : Call → Call
  | .add r o =>
    if (t.find? r (effectiveKey "" o)).isSome then .update r "" (atVersion none o) .none
    else .create r "" o .none
  | c => c

/-- A run of calls with each add replaced by the call that it comes to when its turn comes. -/
def withoutAdds : Tracker → List Call → List Call
  | _, [] => []
  | t, c :: cs => c.withoutAdd t :: withoutAdds (t.perform c).2 cs

/-- What an add leaves its replacement leaves as well. -/
theorem perform_withoutAdd (c : Call) : (t.perform (c.withoutAdd t)).2 = (t.perform c).2 := by
  cases c with
  | add r o =>
    rw [Call.withoutAdd]
    rcases place_cases r "" o with ⟨o', hplace⟩ | ⟨s, -, hplace⟩
    · cases hf : t.find? r (effectiveKey "" o) with
      | none =>
        obtain ⟨stored, -, -, hwrite, hadd⟩ := addsAs_create hplace (p := .none) rfl hf
        simp [perform, hwrite, hadd, answered]
      | some old =>
        obtain ⟨stored, -, -, hwrite, hadd⟩ := addsAs_update hplace (p := .none) rfl hf
        simp [perform, hwrite, hadd, answered]
    · have hplace' : place r "" (atVersion none o) = .error s := by
        rw [place_atVersion, hplace]
        rfl
      split <;> simp [perform, answered, add_of_invalid hplace, create_of_invalid hplace,
        update_of_invalid hplace']
  | _ => rfl

theorem run_withoutAdds (cs : List Call) : ∀ t : Tracker, t.run (t.withoutAdds cs) = t.run cs := by
  induction cs with
  | nil => exact fun _ => rfl
  | cons c cs ih =>
    intro t
    rw [withoutAdds, run_cons, run_cons, perform_withoutAdd, ih]

theorem withoutAdd_ne_add (c : Call) : c.withoutAdd t ≠ .add r o := by
  cases c with
  | add r' o' =>
    rw [Call.withoutAdd]
    split <;> exact nofun
  | _ => exact nofun

theorem not_mem_withoutAdds (cs : List Call) : ∀ t : Tracker, .add r o ∉ t.withoutAdds cs := by
  induction cs with
  | nil => exact fun _ => List.not_mem_nil
  | cons c cs ih =>
    intro t h
    rcases List.mem_cons.mp h with h | h
    · exact withoutAdd_ne_add t r o c h.symm
    · exact ih _ h

/-- **Adding.** Whatever a tracker holds, an add of an object fails just if a create of it would
fail because the object is invalid, for the same reason. If it is valid, an add comes to the same
mutation as a create where its key is free, and as an update of the object without a version
where it is not. Which version the object says makes no difference to an add. So every run comes
to the same tracker without a single add. -/
theorem adds_create_or_replace {p : PostParams} (hp : p.dryRun = false) :
    (∀ s, t.add r o = .error s ↔ t.create r "" o p = .error s ∧ s.isInvalid = true) ∧
    ((∀ s, t.create r "" o p = .error s → s.isInvalid = false) →
      (t.find? r (effectiveKey "" o) = none → t.AddsAs r o .added (t.create r "" o p)) ∧
      ∀ old, t.find? r (effectiveKey "" o) = some old →
        t.AddsAs r o .modified (t.update r "" (atVersion none o) p)) ∧
    (∀ v, t.add r (atVersion v o) = t.add r o) ∧
    ∀ cs, t.run (t.withoutAdds cs) = t.run cs ∧ ∀ r o, .add r o ∉ t.withoutAdds cs := by
  refine ⟨t.add_eq_error_iff r o p, fun hvalid => ?_, t.add_atVersion r o,
    fun cs => ⟨run_withoutAdds cs t, fun r o => not_mem_withoutAdds r o cs t⟩⟩
  rcases place_cases r "" o with ⟨o', hplace⟩ | ⟨s, hinvalid, hplace⟩
  · exact ⟨addsAs_create hplace hp, fun _ => addsAs_update hplace hp⟩
  · rw [hvalid s (create_of_invalid hplace p)] at hinvalid
    cases hinvalid

/-- An object of an outdated version is added where there is another: a create finds it there
and an update finds it outdated, but an add comes to an update that says no version. -/
theorem outdated_config_map_is_added :
    let r : GroupVersionResource := ⟨"", "v1", "configmaps"⟩
    let o : Erased := atVersion (some "7") ⟨none, .named "a", .null⟩
    let t : Tracker := ((empty.watch r "").2.perform (.add r o)).2
    (∀ s, t.create r "" o .none = .error s → s.isInvalid = false) ∧
      (∃ old, t.find? r (effectiveKey "" o) = some old) ∧
      (t.update r "" o .none).isOk = false ∧
      t.AddsAs r o .modified (t.update r "" (atVersion none o) .none) ∧
      empty.AddsAs r o .added (empty.create r "" o .none) := by
  intro r o t
  have hvalid : ∀ s, t.create r "" o .none = .error s → s.isInvalid = false := by
    intro s hs
    have hexists : t.create r "" o .none = .error (.alreadyExists r "a") := by decide +kernel
    cases hexists.symm.trans hs
    rfl
  obtain ⟨old, hold⟩ := Option.isSome_iff_exists.mp (show
    (t.find? r (effectiveKey "" o)).isSome = true by decide +kernel)
  obtain ⟨-, hadds, -⟩ := adds_create_or_replace t r o (p := .none) rfl
  obtain ⟨-, hfirst, -⟩ := adds_create_or_replace empty r o (p := .none) rfl
  refine ⟨hvalid, ⟨old, hold⟩, by decide +kernel, (hadds hvalid).2 old hold, (hfirst ?_).1 rfl⟩
  intro s hs
  cases hs

end Tracker
end ClusterKit
