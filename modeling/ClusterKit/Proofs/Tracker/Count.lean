/-
# Versions count the writes

The version of a tracker is the number of calls that have stored an object, in
any collection. So the version of a stored object says which of these calls has
stored it, counted from the first of the run, and the object is where its own
metadata says.

Key definitions: `Tracker.Entry.isStoring`.
Key theorems: `Tracker.version_run`, `Tracker.stored_objects_are_placed_and_counted`.
-/
import ClusterKit.Proofs.Tracker.Fanout

namespace ClusterKit
namespace Tracker

/-! ### Calls that store -/

/-- Whether the call adds, creates or updates an object, and takes effect. -/
def Entry.isStoring (e : Entry) : Bool :=
  e.isEffective && e.call.object?.isSome

namespace Entry

/-- Each call that stores an object counts, and no other does. -/
theorem version_after (e : Entry) :
    e.after.version = e.before.version + if e.isStoring then 1 else 0 := by
  unfold isStoring
  rcases e.quiet_or_makes with hq | ⟨m, hm⟩
  · rw [hq.after, version_tend, hq.isEffective]
    rfl
  · rw [hm.after, version_commit, hm.isEffective, hm.stores]
    rfl

theorem Stores.isStoring {e : Entry} {r : GroupVersionResource} {k : ObjectKey} {o : Erased}
    (h : e.Stores r k o) : e.isStoring = true := by
  have hv := e.version_after
  rw [h.version.1] at hv
  by_contra hn
  simp [hn] at hv

end Entry

/-- The version of a tracker counts the calls that have stored something. -/
theorem version_run (cs : List Call) : ∀ t : Tracker,
    (t.run cs).version = t.version + (t.history cs).countP Entry.isStoring := by
  induction cs with
  | nil => exact fun _ => rfl
  | cons c cs ih =>
    intro t
    have hstep := Entry.version_after ⟨t, c⟩
    have hrest := ih (t.perform c).2
    rw [run_cons, history_cons, List.countP_cons, hrest]
    simp only [Entry.after] at hstep
    omega

theorem version_le_run (t : Tracker) (cs : List Call) : t.version ≤ (t.run cs).version := by
  rw [version_run]
  exact Nat.le_add_right _ _

/-- What a call stores has the number of the call among those that store. -/
theorem version_of_stores {cs : List Call} {h₁ h₂ : List Entry} {w : Entry}
    {r : GroupVersionResource} {k : ObjectKey} {o : Erased}
    (hh : empty.history cs = h₁ ++ w :: h₂) (hw : w.Stores r k o) :
    o.metadata.resourceVersion = some (toString (h₁.countP Entry.isStoring + 1)) := by
  obtain ⟨cs₁, -, -, rfl, hb, -⟩ := history_split hh
  obtain ⟨hv, hr⟩ := hw.version
  have hcount : w.before.version = 0 + _ := hb ▸ version_run cs₁ empty
  rw [hr, hv, hcount, Nat.zero_add]

/-- **Representation of the store.** After any run of calls, every object is at the key that
its metadata says, its namespace is left out just if it has none, and its version is the number
of the call that has stored it, among all that have stored something in any collection. So no
two stored objects have the same version, no version is beyond the one that a list tells, and
what a list tells never decreases. -/
theorem stored_objects_are_placed_and_counted (cs : List Call) :
    (∀ r k o, (empty.run cs).find? r k = some o → o.IsAt k ∧
      ∃ h₁ w h₂, empty.history cs = h₁ ++ w :: h₂ ∧ w.isStoring = true ∧ w.Stores r k o ∧
        (∀ x ∈ h₂, ¬ x.Touches r k) ∧
        o.metadata.resourceVersion = some (toString (h₁.countP Entry.isStoring + 1))) ∧
    (∀ r k o r' k' o', (empty.run cs).find? r k = some o → (empty.run cs).find? r' k' = some o' →
      (r, k) ≠ (r', k') → o.metadata.resourceVersion ≠ o'.metadata.resourceVersion) ∧
    (∀ r k o r' ns, (empty.run cs).find? r k = some o → ∃ n m : Nat, n ≤ m ∧
      o.metadata.resourceVersion = some (toString n) ∧
      ((empty.run cs).list r' ns).metadata.resourceVersion = some (toString m)) ∧
    ∀ ds r ns r' ns', ∃ m m' : Nat, m ≤ m' ∧
      ((empty.run cs).list r ns).metadata.resourceVersion = some (toString m) ∧
      ((empty.run (cs ++ ds)).list r' ns').metadata.resourceVersion = some (toString m') := by
  refine ⟨?_, ?_, ?_, ?_⟩
  · intro r k o ho
    obtain ⟨h₁, h₂, w, hh, hw, hq⟩ := stored_by_last_write cs ho
    exact ⟨placed_run placed_empty cs r k o ho, h₁, w, h₂, hh, hw.isStoring, hw, hq,
      version_of_stores hh hw⟩
  · intro r k o r' k' o' ho ho' hne heq
    obtain ⟨h₁, h₂, w, hh, hw, -⟩ := stored_by_last_write cs ho
    obtain ⟨h₁', h₂', w', hh', hw', -⟩ := stored_by_last_write cs ho'
    have hmem : w' ∈ h₁ ++ w :: h₂ := by
      rw [← hh, hh']
      exact List.mem_append_right _ List.mem_cons_self
    rcases List.mem_append.mp hmem with hm | hm
    · exact version_unique hh hw w' (List.mem_append_left _ hm) _ _ _ hw' heq.symm
    · rcases List.mem_cons.mp hm with rfl | hm
      · exact hne (Option.some.inj (hw.1.2.symm.trans hw'.1.2))
      · exact version_unique hh hw w' (List.mem_append_right _ hm) _ _ _ hw' heq.symm
  · intro r k o r' ns ho
    obtain ⟨n, -, hn, hr⟩ := version_of_find? ho
    exact ⟨n, _, hn, hr, rfl⟩
  · intro ds r ns r' ns'
    refine ⟨_, _, ?_, rfl, rfl⟩
    rw [run_append]
    exact version_le_run _ ds

/-- Two objects of one name in two collections, one of them written again after a call that
failed and one that was only tried: each has the number of its last write. -/
theorem rewritten_object_has_the_last_number :
    let r : GroupVersionResource := ⟨"", "v1", "configmaps"⟩
    let s : GroupVersionResource := ⟨"", "v1", "nodes"⟩
    let o : Erased := ⟨none, .named "a", .null⟩
    let cs : List Call := [.create r "x" o .none, .add s o, .create r "x" o .none,
      .update r "x" o { PostParams.none with dryRun := true }, .update r "x" o .none]
    ∃ a b, (empty.run cs).find? r ⟨"x", "a"⟩ = some a ∧
      (empty.run cs).find? s ⟨"", "a"⟩ = some b ∧ a.IsAt ⟨"x", "a"⟩ ∧ b.IsAt ⟨"", "a"⟩ ∧
      a.metadata.resourceVersion ≠ b.metadata.resourceVersion ∧
      ∃ h₁ w h₂, empty.history cs = h₁ ++ w :: h₂ ∧ w.Stores r ⟨"x", "a"⟩ a ∧
        a.metadata.resourceVersion = some (toString (h₁.countP Entry.isStoring + 1)) ∧
        h₁.countP Entry.isStoring = 2 := by
  intro r s o cs
  obtain ⟨a, ha, hv⟩ := Option.map_eq_some_iff.mp (show
    ((empty.run cs).find? r ⟨"x", "a"⟩).map (·.metadata.resourceVersion) =
      some (some (toString 3)) by decide +kernel)
  obtain ⟨b, hb⟩ := Option.isSome_iff_exists.mp (show
    ((empty.run cs).find? s ⟨"", "a"⟩).isSome = true by decide +kernel)
  obtain ⟨hplaced, hdistinct, -⟩ := stored_objects_are_placed_and_counted cs
  obtain ⟨hat, h₁, w, h₂, hh, -, hw, -, hcount⟩ := hplaced r ⟨"x", "a"⟩ a ha
  obtain ⟨hat', -⟩ := hplaced s ⟨"", "a"⟩ b hb
  have hne : (r, (⟨"x", "a"⟩ : ObjectKey)) ≠ (s, ⟨"", "a"⟩) := by decide
  have hthird : h₁.countP Entry.isStoring + 1 = 3 :=
    Numeral.nat_injective (Option.some.inj (hcount.symm.trans hv))
  exact ⟨a, b, ha, hb, hat, hat', hdistinct _ _ _ _ _ _ ha hb hne, h₁, w, h₂, hh, hw, hcount,
    Nat.succ.inj hthird⟩

end Tracker
end ClusterKit
