/-
# Histories of a tracker

A run of calls has a history: every call with the tracker that it meets. Two
things hold along any history that begins with the empty tracker. What is
stored at a key is what the last write there has stored (`stored_by_last_write`),
and no two writes assign the same version, in whatever collection and however
often an object is deleted and made again (`version_unique`). So a version
that an update or a delete asks for stands for one write, and the call goes
ahead only while nothing has happened to the key since that write: updates
never get lost, and an object that looks the same is the same.

Key definitions: `Tracker.run`, `Tracker.history`, `Tracker.Call.expects?`.
Key theorems: `Tracker.stored_by_last_write`, `Tracker.guarded_calls_meet_the_write_they_name`.
-/
import ClusterKit.Proofs.Text.Numeral
import ClusterKit.Proofs.Tracker.Call
import Mathlib.Data.List.Induction

namespace ClusterKit
namespace Tracker

/-! ### Runs -/

/-- The tracker after a run of calls. -/
def run (t : Tracker) (cs : List Call) : Tracker :=
  cs.foldl (fun t c => (t.perform c).2) t

/-- The calls of a run, each with the tracker that it meets. -/
def history : Tracker → List Call → List Entry
  | _, [] => []
  | t, c :: cs => ⟨t, c⟩ :: history (t.perform c).2 cs

@[simp] theorem run_nil (t : Tracker) : t.run [] = t := rfl

@[simp] theorem run_cons (t : Tracker) (c : Call) (cs : List Call) :
    t.run (c :: cs) = (t.perform c).2.run cs := rfl

theorem run_append (t : Tracker) (cs ds : List Call) : t.run (cs ++ ds) = (t.run cs).run ds :=
  List.foldl_append

@[simp] theorem history_nil (t : Tracker) : t.history [] = [] := rfl

@[simp] theorem history_cons (t : Tracker) (c : Call) (cs : List Call) :
    t.history (c :: cs) = ⟨t, c⟩ :: (t.perform c).2.history cs := rfl

theorem history_append (cs ds : List Call) : ∀ t : Tracker,
    t.history (cs ++ ds) = t.history cs ++ (t.run cs).history ds := by
  induction cs with
  | nil => intro t; rfl
  | cons c cs ih => intro t; simp [ih]

/-- An entry of a history is met after the calls before it. -/
theorem history_split {h h' : List Entry} {e : Entry} : ∀ {t : Tracker} {cs : List Call},
    t.history cs = h ++ e :: h' → ∃ cs₁ cs₂, cs = cs₁ ++ e.call :: cs₂ ∧
      h = t.history cs₁ ∧ e.before = t.run cs₁ ∧ h' = e.after.history cs₂ := by
  induction h with
  | nil =>
    intro t cs hh
    cases cs with
    | nil => simp at hh
    | cons c cs =>
      simp only [history_cons, List.nil_append, List.cons.injEq] at hh
      obtain ⟨rfl, rfl⟩ := hh
      exact ⟨[], cs, rfl, rfl, rfl, rfl⟩
  | cons d h ih =>
    intro t cs hh
    cases cs with
    | nil => simp at hh
    | cons c cs =>
      simp only [history_cons, List.cons_append, List.cons.injEq] at hh
      obtain ⟨rfl, hh⟩ := hh
      obtain ⟨cs₁, cs₂, rfl, rfl, hb, rfl⟩ := ih hh
      exact ⟨c :: cs₁, cs₂, rfl, rfl, hb, rfl⟩

/-! ### What a history does to the objects -/

namespace Entry

/-- The call is a write at a key that takes effect. -/
def Touches (e : Entry) (r : GroupVersionResource) (k : ObjectKey) : Prop :=
  e.isEffective = true ∧ e.call.target? = some (r, k)

/-- The call is a write that takes effect and leaves the object `o` at a key. -/
def Stores (e : Entry) (r : GroupVersionResource) (k : ObjectKey) (o : Erased) : Prop :=
  e.Touches r k ∧ e.after.find? r k = some o

theorem Makes.touches {e : Entry} {m : Mutation} (h : e.Makes m) : e.Touches m.resource m.key := by
  have hm := h.mutation
  simp only [mutation?, h.isEffective, ↓reduceIte, Option.bind_eq_bind, Option.bind_eq_some_iff,
    Option.pure_def, Option.some.injEq] at hm
  obtain ⟨⟨r, k⟩, ht, c, -, rfl⟩ := hm
  exact ⟨h.isEffective, ht⟩

theorem Makes.find?_after {e : Entry} {m : Mutation} (h : e.Makes m) :
    e.after.find? m.resource m.key = m.change.result? := by
  rw [h.after, find?_commit, if_pos ⟨rfl, rfl⟩]

/-- A write that takes effect makes a mutation at its key. -/
theorem Touches.makes {e : Entry} {r : GroupVersionResource} {k : ObjectKey}
    (h : e.Touches r k) : ∃ c, e.Makes ⟨r, k, c⟩ := by
  rcases e.quiet_or_makes with hq | ⟨m, hm⟩
  · have := hq.isEffective.symm.trans h.1
    cases this
  · have hk := hm.touches.2.symm.trans h.2
    simp only [Option.some.injEq, Prod.mk.injEq] at hk
    obtain ⟨rfl, rfl⟩ := hk
    exact ⟨m.change, hm⟩

theorem find?_after_of_not_touches {e : Entry} {r : GroupVersionResource} {k : ObjectKey}
    (h : ¬ e.Touches r k) : e.after.find? r k = e.before.find? r k := by
  rcases e.quiet_or_makes with hq | ⟨m, hm⟩
  · rw [hq.after, find?_tend]
  · rw [hm.after, find?_commit, if_neg]
    rintro ⟨rfl, rfl⟩
    exact h hm.touches

/-- What a write stores has the version that the tracker reaches by it. -/
theorem Stores.version {e : Entry} {r : GroupVersionResource} {k : ObjectKey} {o : Erased}
    (h : e.Stores r k o) : e.after.version = e.before.version + 1 ∧
      o.metadata.resourceVersion = some (toString e.after.version) := by
  obtain ⟨c, hm⟩ := h.1.makes
  have ho : c.result? = some o := hm.find?_after.symm.trans h.2
  have hv : e.after.version = e.before.version + 1 := by
    rw [hm.after, version_commit]
    simp [ho]
  exact ⟨hv, by rw [hv]; exact hm.fits.version o ho⟩

theorem Stores.after_version {e : Entry} {r : GroupVersionResource} {k : ObjectKey} {o : Erased}
    {n : Nat} (h : e.Stores r k o) (hn : o.metadata.resourceVersion = some (toString n)) :
    e.after.version = n := by
  rw [h.version.2, Option.some.injEq] at hn
  exact Numeral.nat_injective hn

theorem version_le_after (e : Entry) : e.before.version ≤ e.after.version := by
  rcases e.quiet_or_makes with hq | ⟨m, hm⟩
  · have h : e.after.version = e.before.version := by rw [hq.after, version_tend]
    omega
  · have h := version_commit e.before m
    rw [← hm.after] at h
    omega

end Entry

/-- What is stored at a key has been stored by a write behind which nothing has
happened to the key. -/
theorem stored_by_last_write {r : GroupVersionResource} {k : ObjectKey} {o : Erased}
    (cs : List Call) (ho : (empty.run cs).find? r k = some o) :
    ∃ (h₁ h₂ : List Entry) (w : Entry), empty.history cs = h₁ ++ w :: h₂ ∧ w.Stores r k o ∧
      ∀ e ∈ h₂, ¬ e.Touches r k := by
  induction cs using List.reverseRecOn with
  | nil => simp at ho
  | append_singleton cs c ih =>
    rw [run_append] at ho
    rw [history_append]
    by_cases ht : (Entry.mk (empty.run cs) c).Touches r k
    · exact ⟨empty.history cs, [], _, rfl, ⟨ht, ho⟩, by simp⟩
    · have hold : (empty.run cs).find? r k = some o :=
        (Entry.find?_after_of_not_touches ht).symm.trans ho
      obtain ⟨h₁, h₂, w, hh, hw, hq⟩ := ih hold
      refine ⟨h₁, h₂ ++ [⟨empty.run cs, c⟩], w, by simp [hh], hw, ?_⟩
      intro e he
      rcases List.mem_append.mp he with he | he
      · exact hq e he
      · rw [List.mem_singleton] at he
        exact he ▸ ht

/-! ### Versions -/

theorem version_le_of_mem_history {t : Tracker} {cs : List Call} : ∀ {e : Entry},
    e ∈ t.history cs → t.version ≤ e.before.version := by
  induction cs generalizing t with
  | nil => simp
  | cons c cs ih =>
    intro e he
    rcases List.mem_cons.mp he with rfl | he
    · exact Nat.le_refl _
    · exact Nat.le_trans (Entry.version_le_after ⟨t, c⟩) (ih he)

/-- The version only grows along a history. -/
theorem history_version_le (t : Tracker) (cs : List Call) :
    (t.history cs).Pairwise fun e f => e.after.version ≤ f.before.version := by
  induction cs generalizing t with
  | nil => exact List.Pairwise.nil
  | cons c cs ih => exact List.pairwise_cons.mpr ⟨fun f hf => version_le_of_mem_history hf, ih _⟩

theorem after_version_le_run {t : Tracker} {cs : List Call} : ∀ {e : Entry},
    e ∈ t.history cs → e.after.version ≤ (t.run cs).version := by
  induction cs generalizing t with
  | nil => simp
  | cons c cs ih =>
    intro e he
    rcases List.mem_cons.mp he with rfl | he
    · cases cs with
      | nil => exact Nat.le_refl _
      | cons d ds =>
        have h : (Entry.mk (t.perform c).2 d).after.version ≤ _ := ih List.mem_cons_self
        exact Nat.le_trans (Entry.version_le_after (Entry.mk (t.perform c).2 d)) h
    · exact ih he

/-- What is stored has a version that the tracker has assigned. -/
theorem version_of_find? {r : GroupVersionResource} {k : ObjectKey} {o : Erased} {cs : List Call}
    (ho : (empty.run cs).find? r k = some o) :
    ∃ n, 0 < n ∧ n ≤ (empty.run cs).version ∧ o.metadata.resourceVersion = some (toString n) := by
  obtain ⟨h₁, h₂, w, hh, hw, -⟩ := stored_by_last_write cs ho
  obtain ⟨hv, hr⟩ := hw.version
  refine ⟨w.after.version, by omega, after_version_le_run ?_, hr⟩
  rw [hh]
  exact List.mem_append_right _ List.mem_cons_self

/-- No two writes of a history assign the same version. -/
theorem version_unique {t : Tracker} {cs : List Call} {h₁ h₂ : List Entry} {w : Entry}
    {r : GroupVersionResource} {k : ObjectKey} {o : Erased} (hh : t.history cs = h₁ ++ w :: h₂)
    (hw : w.Stores r k o) : ∀ x ∈ h₁ ++ h₂, ∀ r' k' o', x.Stores r' k' o' →
      o'.metadata.resourceVersion ≠ o.metadata.resourceVersion := by
  intro x hx r' k' o' hs he
  have hp := history_version_le t cs
  rw [hh, List.pairwise_append, List.pairwise_cons] at hp
  obtain ⟨hv, hr⟩ := hw.version
  obtain ⟨hv', hr'⟩ := hs.version
  rw [hr, hr', Option.some.injEq] at he
  have heq := Numeral.nat_injective he
  rcases List.mem_append.mp hx with hx | hx
  · have := hp.2.2 x hx w List.mem_cons_self
    omega
  · have := hp.2.1.1 x hx
    omega

/-! ### Calls that ask for a version -/

/-- What an update or a delete asks for: a version of the object at a key. -/
def Call.expects? : Call → Option (GroupVersionResource × ObjectKey × String)
  | .update r ns o _ => do
    let (k, _) ← (place r ns o).toOption
    let v ← claimedVersion o
    return (r, k, v)
  | .delete r ns name p => do
    let c ← p.preconditions
    let v ← c.resourceVersion
    return (r, ⟨ns, name⟩, v)
  | _ => none

theorem claimedVersion_place {r : GroupVersionResource} {ns : String} {o o' : Erased}
    {k : ObjectKey} (h : place r ns o = .ok (k, o')) : claimedVersion o' = claimedVersion o := by
  obtain ⟨ns', rfl⟩ := place_object h
  rfl

theorem Call.target?_of_expects {c : Call} {r : GroupVersionResource} {k : ObjectKey} {v : String}
    (h : c.expects? = some (r, k, v)) : c.target? = some (r, k) := by
  cases c with
  | update r' ns o p =>
    simp only [expects?, Option.bind_eq_bind, Option.bind_eq_some_iff, Option.pure_def,
      Option.some.injEq, Prod.mk.injEq] at h
    obtain ⟨⟨k', o'⟩, hp, v', -, rfl, rfl, rfl⟩ := h
    simp [target?, hp]
  | delete r' ns name p =>
    simp only [expects?, Option.bind_eq_bind, Option.bind_eq_some_iff, Option.pure_def,
      Option.some.injEq, Prod.mk.injEq] at h
    obtain ⟨c, -, v', -, rfl, rfl, rfl⟩ := h
    rfl
  | _ => simp [expects?] at h

/-- A call that asks for a version does not succeed unless the stored object has it. -/
theorem Entry.find?_of_expects {e : Entry} {r : GroupVersionResource} {k : ObjectKey} {v : String}
    (he : e.call.expects? = some (r, k, v)) (hs : e.succeeded = true) :
    ∃ o, e.before.find? r k = some o ∧ o.metadata.resourceVersion = some v := by
  obtain ⟨t, c⟩ := e
  cases c with
  | update r' ns o p =>
    rcases update_cases t r' ns o p with ⟨s, h⟩ | ⟨k', o', old, hp, hf, hv, -⟩
    · simp [succeeded, answer, perform, answered, h, Except.isOk, Except.toBool] at hs
    · simp only [Call.expects?, hp, Except.toOption, Option.bind_eq_bind, Option.bind_some,
        Option.bind_eq_some_iff, Option.pure_def, Option.some.injEq, Prod.mk.injEq] at he
      obtain ⟨v', hc, rfl, rfl, rfl⟩ := he
      exact ⟨old, hf, hv _ ((claimedVersion_place hp).trans hc)⟩
  | delete r' ns name p =>
    rcases delete_cases t r' ns name p with ⟨s, h⟩ | ⟨old, hf, hc, -⟩
    · simp [succeeded, answer, perform, answered, h, Except.isOk, Except.toBool] at hs
    · simp only [Call.expects?, Option.bind_eq_bind, Option.bind_eq_some_iff, Option.pure_def,
        Option.some.injEq, Prod.mk.injEq] at he
      obtain ⟨c, hpre, v', hv, rfl, rfl, rfl⟩ := he
      exact ⟨old, hf, version_of_checkPreconditions (hc c hpre) _ hv⟩
  | _ => simp [Call.expects?] at he

/-- The version that a call asks for and meets has been assigned before the call. -/
theorem version_of_expects {cs : List Call} {h h' : List Entry} {e : Entry}
    {r : GroupVersionResource} {k : ObjectKey} {v : String}
    (hh : empty.history cs = h ++ e :: h') (he : e.call.expects? = some (r, k, v))
    (hs : e.succeeded = true) : ∃ n, n ≤ e.before.version ∧ v = toString n := by
  obtain ⟨o, ho, hv⟩ := e.find?_of_expects he hs
  obtain ⟨cs₁, cs₂, -, -, hb, -⟩ := history_split hh
  obtain ⟨n, -, hn, hr⟩ := version_of_find? (hb ▸ ho)
  exact ⟨n, hb ▸ hn, Option.some.inj (hv.symm.trans hr)⟩

/-- A call that asks for a version and succeeds meets what the write of that
version has stored, and nothing has happened to the key since that write. -/
theorem expected_write {cs : List Call} {h h' : List Entry} {e : Entry}
    {r : GroupVersionResource} {k : ObjectKey} {v : String}
    (hh : empty.history cs = h ++ e :: h') (he : e.call.expects? = some (r, k, v))
    (hs : e.succeeded = true) :
    ∃ (h₁ h₂ : List Entry) (w : Entry) (o : Erased), h = h₁ ++ w :: h₂ ∧ w.Stores r k o ∧
      o.metadata.resourceVersion = some v ∧ e.before.find? r k = some o ∧
      ∀ x ∈ h₂, ¬ x.Touches r k := by
  obtain ⟨o, ho, hv⟩ := e.find?_of_expects he hs
  obtain ⟨cs₁, cs₂, -, rfl, hb, -⟩ := history_split hh
  obtain ⟨h₁, h₂, w, hsplit, hw, hq⟩ := stored_by_last_write cs₁ (hb ▸ ho)
  exact ⟨h₁, h₂, w, o, hsplit, hw, hv, ho, hq⟩

/-- Of two calls that ask for the same version of an object, the later one does
not succeed once the earlier one has taken effect. -/
theorem not_succeeded_of_effective {cs : List Call} {h₁ h₂ h₃ : List Entry} {e f : Entry}
    {r : GroupVersionResource} {k : ObjectKey} {v : String}
    (hh : empty.history cs = h₁ ++ e :: (h₂ ++ f :: h₃))
    (he : e.call.expects? = some (r, k, v)) (hf : f.call.expects? = some (r, k, v))
    (hee : e.isEffective = true) : ¬ f.succeeded = true := by
  intro hfs
  obtain ⟨n, hn, hv⟩ := version_of_expects hh he (Bool.and_eq_true_iff.mp hee).2
  have hh' : empty.history cs = (h₁ ++ e :: h₂) ++ f :: h₃ := by rw [hh]; simp
  obtain ⟨a, b, w, o, hsplit, hw, ho, -, hq⟩ := expected_write hh' hf hfs
  have hwn : w.after.version = n := hw.after_version (by rw [ho, hv])
  have hp := history_version_le empty cs
  rw [hh', hsplit, List.pairwise_append, List.pairwise_append, List.pairwise_cons] at hp
  have hmem : e ∈ a ++ w :: b := hsplit ▸ List.mem_append_right _ List.mem_cons_self
  -- `e` meets the version `n`, so it comes after the write of `n`, and touches the key
  rcases List.mem_append.mp hmem with hea | heb
  · have := hp.1.2.2 e hea w List.mem_cons_self
    have := e.version_le_after
    have := hw.version.1
    omega
  · rcases List.mem_cons.mp heb with rfl | heb
    · have := hw.version.1
      omega
    · exact hq e heb ⟨hee, Call.target?_of_expects he⟩

/-- **No lost update.** In every run of calls, by whomever and in whatever order,
an update or a delete that asks for a version of an object and succeeds meets
exactly what the only write that was assigned this version has stored, and no
write at the key has taken effect since. So once a call that asks for a version
has taken effect, no later one that asks for the same version succeeds. -/
theorem guarded_calls_meet_the_write_they_name (cs : List Call) :
    (∀ (h h' : List Entry) (e : Entry) (r : GroupVersionResource) (k : ObjectKey) (v : String),
      empty.history cs = h ++ e :: h' → e.call.expects? = some (r, k, v) → e.succeeded = true →
      ∃ (h₁ h₂ : List Entry) (w : Entry) (o : Erased), h = h₁ ++ w :: h₂ ∧ w.Stores r k o ∧
        o.metadata.resourceVersion = some v ∧ e.before.find? r k = some o ∧
        (∀ x ∈ h₂, ¬ x.Touches r k) ∧
        ∀ x ∈ h₁ ++ (h₂ ++ e :: h'), ∀ r' k' o', x.Stores r' k' o' →
          o'.metadata.resourceVersion ≠ some v) ∧
    ∀ (h₁ h₂ h₃ : List Entry) (e f : Entry) (r : GroupVersionResource) (k : ObjectKey) (v : String),
      empty.history cs = h₁ ++ e :: (h₂ ++ f :: h₃) → e.call.expects? = some (r, k, v) →
      f.call.expects? = some (r, k, v) → e.isEffective = true → ¬ f.succeeded = true := by
  constructor
  · intro h h' e r k v hh he hs
    obtain ⟨h₁, h₂, w, o, rfl, hw, hv, ho, hq⟩ := expected_write hh he hs
    refine ⟨h₁, h₂, w, o, rfl, hw, hv, ho, hq, ?_⟩
    rw [← hv]
    exact version_unique (by rw [hh]; simp) hw
  · intro h₁ h₂ h₃ e f r k v hh he hf hee
    exact not_succeeded_of_effective hh he hf hee

/-- An object that is deleted and made again is not the one it was: the second
update, which asks for the first version, fails where the first one has met it. -/
theorem guarded_update_after_recreation :
    let r : GroupVersionResource := ⟨"", "v1", "configmaps"⟩
    let o (v : Option String) : Erased := atVersion v ⟨none, .named "a", .null⟩
    let cs : List Call := [.create r "x" (o none) .none, .delete r "x" "a" .none,
      .create r "x" (o none) .none, .update r "x" (o (some "2")) .none,
      .update r "x" (o (some "2")) .none]
    ∃ (h : List Entry) (e f : Entry), empty.history cs = h ++ [e, f] ∧
      e.call.expects? = some (r, ⟨"x", "a"⟩, "2") ∧ e.succeeded = true ∧ e.isEffective = true ∧
      f.call.expects? = some (r, ⟨"x", "a"⟩, "2") ∧ ¬ f.succeeded = true ∧
      ∃ (h₁ h₂ : List Entry) (w : Entry) (o' : Erased), h = h₁ ++ w :: h₂ ∧
        w.Stores r ⟨"x", "a"⟩ o' ∧ e.before.find? r ⟨"x", "a"⟩ = some o' ∧
        ∀ x ∈ h₂, ¬ x.Touches r ⟨"x", "a"⟩ := by
  intro r o cs
  obtain ⟨a, b, c, e, f, hh, hee, hfe, hs⟩ : ∃ a b c e f, empty.history cs = [a, b, c, e, f] ∧
      e.call.expects? = some (r, ⟨"x", "a"⟩, "2") ∧
      f.call.expects? = some (r, ⟨"x", "a"⟩, "2") ∧ e.isEffective = true :=
    ⟨_, _, _, _, _, rfl, by decide, by decide, by decide⟩
  obtain ⟨meets, once⟩ := guarded_calls_meet_the_write_they_name cs
  have hes : e.succeeded = true := (Bool.and_eq_true_iff.mp hs).2
  obtain ⟨h₁, h₂, w, o', hsplit, hw, -, ho, hq, -⟩ := meets [a, b, c] [f] e _ _ _ hh hee hes
  exact ⟨[a, b, c], e, f, hh, hee, hes, hs, hfe, once [a, b, c] [] [] e f _ _ _ hh hee hfe hs,
    h₁, h₂, w, o', hsplit, hw, ho, hq⟩

end Tracker
end ClusterKit
