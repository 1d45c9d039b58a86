/-
# Reading back what has been written

An object that is created or updated through an api of a faithful kind goes
into the store without its type, and under other metadata: it gets the next
version, and an empty namespace is left out. What the call answers with, and
what a get answers with as long as nobody writes at the key again, is the
object with these metadata, whatever else happens to the cluster meanwhile.

Key definitions: `Clientset.Event`, `Clientset.after`, `ObjectMeta.stored`.
Key theorems: `Clientset.after_eq`, `FakeApi.run_get_eq_ok`,
`FakeApi.written_objects_read_back`.
-/
import ClusterKit.Catalog.BuiltIn
import ClusterKit.Proofs.Fake.Cluster
import ClusterKit.Proofs.Kind.Faithful

namespace ClusterKit

/-- The metadata under which an object is stored. -/
def ObjectMeta.stored (version : String) (m : ObjectMeta) : ObjectMeta :=
  { m with ns := m.ns.filter (!·.isEmpty), resourceVersion := some version }

/-! ### What happens to a cluster -/

namespace Clientset

/-- Something that happens to a cluster at once: a request through an api of some kind, or a
call on its tracker. -/
inductive Event : Type 1
  | request {α : Type} (K : Kind α) (api : FakeApi) (q : FakeApi.Request α)
  | call (d : Tracker.Call)

/-- The call on the tracker that an event comes down to, if it gets there. -/
def Event.call? : Event → Option Tracker.Call
  | .request K api q => q.call? K api
  | .call d => some d

/-- The cluster after an event. -/
def Event.run (c : Clientset) : Event → Clientset
  | .request K api q => q.run K api c
  | .call d => { c with tracker := (c.tracker.perform d).2 }

/-- The cluster after some events. -/
def after (c : Clientset) (es : List Event) : Clientset :=
  es.foldl Event.run c

/-- Events leave the reactors alone, and do to the tracker what their calls do. -/
theorem after_eq {c : Clientset} (h : c.IsDefault) (es : List Event) :
    (c.after es).IsDefault ∧
      (c.after es).tracker = c.tracker.run (es.filterMap Event.call?) := by
  induction es generalizing c with
  | nil => exact ⟨h, rfl⟩
  | cons e es ih =>
    have hstep : (e.run c).IsDefault ∧ (e.run c).tracker = c.tracker.run e.call?.toList := by
      cases e with
      | request K api q => exact FakeApi.Request.run_eq K api h q
      | call d => exact ⟨⟨h.objects, h.watches⟩, rfl⟩
    obtain ⟨hdefault, htracker⟩ := ih hstep.1
    refine ⟨hdefault, htracker.trans ?_⟩
    rw [hstep.2, ← Tracker.run_append, List.filterMap_cons]
    cases e.call? <;> rfl

end Clientset

/-! ### What a write stores -/

namespace Tracker

/-- An object whose own namespace is that of the call is placed under its own name there. -/
theorem place_own {r : GroupVersionResource} {o o' : Erased} {k : ObjectKey}
    (h : place r (o.metadata.ns.getD "") o = .ok (k, o')) :
    k = ⟨o.metadata.ns.getD "", o.metadata.name.getD ""⟩ ∧
      o' = { o with metadata := { o.metadata with ns := o.metadata.ns.filter (!·.isEmpty) } } := by
  have hfilter : o.metadata.ns.filter (!·.isEmpty) =
      if (o.metadata.ns.getD "").isEmpty then none else o.metadata.ns := by
    cases o.metadata.ns with
    | none => rfl
    | some s => cases hs : s.isEmpty <;> simp [Option.filter, hs]
  rw [hfilter]
  unfold place at h
  simp only at h
  split at h
  · cases h
  · split at h
    · rename_i hown
      cases h
      rw [if_pos hown]
      exact ⟨rfl, rfl⟩
    · rename_i hown
      split at h
      · cases h
        rw [if_neg hown]
        exact ⟨rfl, rfl⟩
      · cases h

/-- What is written, and not only tried, is stored at the next version where it is placed. -/
theorem stored_of_write {t t' : Tracker} {r : GroupVersionResource} {ns : String} {o a : Erased}
    {p : PostParams} (hp : p.dryRun = false)
    (h : t.create r ns o p = .ok (a, t') ∨ t.update r ns o p = .ok (a, t')) :
    ∃ k o', place r ns o = .ok (k, o') ∧ a = atVersion (some (toString (t.version + 1))) o' ∧
      t'.find? r k = some a := by
  have hstore : ∀ k o' event, t.store r k o' event = (a, t') →
      a = atVersion (some (toString (t.version + 1))) o' ∧ t'.find? r k = some a := by
    intro k o' event hs
    obtain ⟨rfl, rfl⟩ := Prod.mk.inj hs
    refine ⟨rfl, ?_⟩
    rw [find?_publish, find?_put, if_pos ⟨rfl, rfl⟩]
  rcases h with h | h
  · rcases create_cases t r ns o p with ⟨s, he⟩ | ⟨k, o', hplace, -, ⟨htried, -⟩ | ⟨-, he⟩⟩
    · cases he.symm.trans h
    · rw [hp] at htried
      cases htried
    · exact ⟨k, o', hplace, hstore k o' _ (Except.ok.inj (he.symm.trans h))⟩
  · rcases update_cases t r ns o p with ⟨s, he⟩ | ⟨k, o', -, hplace, -, -, ⟨htried, -⟩ | ⟨-, he⟩⟩
    · cases he.symm.trans h
    · rw [hp] at htried
      cases htried
    · exact ⟨k, o', hplace, hstore k o' _ (Except.ok.inj (he.symm.trans h))⟩

/-- What stays untouched stays stored. -/
theorem find?_run_of_not_touches {r : GroupVersionResource} {k : ObjectKey} (cs : List Call) :
    ∀ t : Tracker, (∀ e ∈ t.history cs, ¬ e.Touches r k) → (t.run cs).find? r k = t.find? r k := by
  induction cs with
  | nil => exact fun _ _ => rfl
  | cons c cs ih =>
    intro t h
    rw [history_cons] at h
    rw [run_cons, ih _ fun e he => h e (List.mem_cons_of_mem _ he)]
    exact Entry.find?_after_of_not_touches (e := ⟨t, c⟩) (h _ List.mem_cons_self)

end Tracker

/-! ### Writing and reading through an api -/

namespace FakeApi

variable {α : Type} {K : Kind α} {api : FakeApi} {c c' : Clientset}

/-- The key of an object in the collection of its api. -/
def keyOf (K : Kind α) (obj : α) : ObjectKey :=
  ⟨(K.metadata obj).ns.getD "", (K.metadata obj).name.getD ""⟩

/-- A create or an update is answered by what the tracker makes of it. -/
theorem react_of_write (api : FakeApi) (t : Tracker) {p : PostParams} {deed : Erased → Deed}
    (hdeed : (∀ o, deed o = .create o p) ∨ ∀ o, deed o = .update o p) (ns : String) (o : Erased) :
    ∃ e : Except Status (Erased × Tracker),
      t.react (api.action ns (deed o)) = t.written .object e ∧
      ∀ x, e = .ok x → t.create api.resource.gvr ns o p = .ok (x.1, x.2) ∨
        t.update api.resource.gvr ns o p = .ok (x.1, x.2) := by
  rw [action]
  rcases hdeed with hdeed | hdeed
  · rw [hdeed]
    exact ⟨_, rfl, fun x hx => .inl hx⟩
  · rw [hdeed]
    exact ⟨_, rfl, fun x hx => .inr hx⟩

/-- A write answers with the object that it stores, and stores it where it belongs. -/
theorem answer_of_write (hc : c.IsDefault) (hK : K.Faithful) {verb : String} {obj a : α}
    {p : PostParams} (hp : p.dryRun = false) {deed : Erased → Deed}
    (hdeed : (∀ o, deed o = .create o p) ∨ ∀ o, deed o = .update o p)
    (h : (api.write K verb obj deed).run c = (.ok a, c')) :
    c'.IsDefault ∧
      a = K.withMetadata ((K.metadata obj).stored (toString (c.tracker.version + 1))) obj ∧
      ∃ o, c'.tracker.find? api.resource.gvr (keyOf K obj) = some o ∧ K.restore o = .ok a := by
  rw [run_write] at h
  cases he : K.erase api.resource obj with
  | error e =>
    rw [he] at h
    cases h
  | ok o =>
    obtain ⟨hmeta, hrestore⟩ := hK.restore_of_erase he
    rw [he] at h
    obtain ⟨hanswer, hcluster⟩ := Prod.mk.inj h
    rw [Clientset.invoke_eq hc] at hanswer hcluster
    obtain ⟨e, hreact, hwrite⟩ := react_of_write api c.tracker hdeed ((K.metadata obj).ns.getD "") o
    rw [← hmeta] at hwrite
    rw [hreact] at hanswer hcluster
    cases e with
    | error s => cases hanswer
    | ok x =>
      obtain ⟨stored, t'⟩ := x
      obtain ⟨k, o', hplace, rfl, hfind⟩ := Tracker.stored_of_write hp (hwrite _ rfl)
      obtain ⟨rfl, rfl⟩ := Tracker.place_own hplace
      have hread : K.restore (Tracker.atVersion (some (toString (c.tracker.version + 1)))
          { o with metadata := { o.metadata with ns := o.metadata.ns.filter (!·.isEmpty) } }) =
            .ok (K.withMetadata ((K.metadata obj).stored (toString (c.tracker.version + 1))) obj) := by
        rw [← hmeta]
        exact hrestore _
      have ha : a = K.withMetadata ((K.metadata obj).stored (toString (c.tracker.version + 1)))
          obj := by
        simp only [Tracker.written, Option.getD_some, Except.bind, typed, hread] at hanswer
        exact (Except.ok.inj hanswer).symm
      subst hcluster
      refine ⟨⟨hc.objects, hc.watches⟩, ha, _, ?_, ha ▸ hread⟩
      rw [keyOf, ← hmeta]
      exact hfind

/-- A get answers with exactly what the object at the key is restored to. -/
theorem run_get_eq_ok (hc : c.IsDefault) {name ns : String} {gp : GetParams} {a : α} :
    (((api.calls K).get name ns gp).run c).1 = .ok a ↔
      ∃ o, c.tracker.find? api.resource.gvr ⟨ns, name⟩ = some o ∧ K.restore o = .ok a := by
  have hrun : (((api.calls K).get name ns gp).run c).1 =
      (c.invoke (api.action ns (.get name))).1.bind (typed K "get") :=
    congrArg Prod.fst (run_invoke _ _ _)
  rw [hrun, Clientset.invoke_eq hc]
  cases ho : c.tracker.find? api.resource.gvr ⟨ns, name⟩ with
  | none =>
    simp only [Tracker.react, action, Tracker.get, ho]
    constructor
    · intro h
      cases h
    · rintro ⟨o, h, -⟩
      cases h
  | some o =>
    simp only [Tracker.react, action, Tracker.get, ho, Option.getD_some, Except.bind, typed]
    cases hr : K.restore o <;> simp [hr]

theorem run_get_of_find? (hc : c.IsDefault) {name ns : String} {gp : GetParams} {o : Erased} {a : α}
    (ho : c.tracker.find? api.resource.gvr ⟨ns, name⟩ = some o) (ha : K.restore o = .ok a) :
    (((api.calls K).get name ns gp).run c).1 = .ok a :=
  (run_get_eq_ok hc).mpr ⟨o, ho, ha⟩

/-- A write of `obj` that has taken the cluster `c` to `c'` has answered with the object as
it is stored, and so do all gets until something else is written at the key. -/
structure ReadsBack (K : Kind α) (api : FakeApi) (c c' : Clientset) (obj b : α) : Prop where
  answer : b = K.withMetadata ((K.metadata obj).stored (toString (c.tracker.version + 1))) obj
  gets : ∀ (fs : List Clientset.Event) (gp : GetParams),
    (∀ e ∈ c'.tracker.history (fs.filterMap Clientset.Event.call?),
      ¬ e.Touches api.resource.gvr (keyOf K obj)) →
    (((api.calls K).get (keyOf K obj).name (keyOf K obj).ns gp).run (c'.after fs)).1 = .ok b

theorem readsBack_of_write (hc : c.IsDefault) (hK : K.Faithful) {verb : String} {obj b : α}
    {p : PostParams} (hp : p.dryRun = false) {deed : Erased → Deed}
    (hdeed : (∀ o, deed o = .create o p) ∨ ∀ o, deed o = .update o p)
    (h : (api.write K verb obj deed).run c = (.ok b, c')) : ReadsBack K api c c' obj b := by
  obtain ⟨hc', hb, o, ho, hread⟩ := answer_of_write hc hK hp hdeed h
  refine ⟨hb, fun fs gp hfs => ?_⟩
  obtain ⟨hafter, htracker⟩ := Clientset.after_eq hc' fs
  apply run_get_of_find? hafter _ hread
  rw [htracker]
  exact (Tracker.find?_run_of_not_touches _ _ hfs).trans ho

/-- **Round trip.** Whatever has happened to a cluster, a create or an update of an object of a
faithful kind that succeeds, and is not only tried, answers with the object under the metadata
that it is stored with, and every get of the name does so too, until something else is
written there. These metadata are those of the object, but for the version, which no object has
had before, and an empty namespace, which is left out. -/
theorem written_objects_read_back (hK : K.Faithful) (s : Scheme) (es : List Clientset.Event)
    (api : FakeApi) (obj : α) {p : PostParams} (hp : p.dryRun = false) :
    let c := (Clientset.ofScheme s).after es
    (∀ w ∈ Tracker.empty.history (es.filterMap Clientset.Event.call?), ∀ r k o, w.Stores r k o →
      o.metadata.resourceVersion ≠ some (toString (c.tracker.version + 1))) ∧
    (∀ b c', ((api.calls K).create obj p).run c = (.ok b, c') → ReadsBack K api c c' obj b) ∧
    ∀ b c', ((api.calls K).update obj p).run c = (.ok b, c') → ReadsBack K api c c' obj b := by
  intro c
  obtain ⟨hc, htracker⟩ := Clientset.after_eq (Clientset.isDefault_ofScheme s) es
  refine ⟨?_, ?_, ?_⟩
  · intro w hw r k o hs hv
    have hle := Tracker.after_version_le_run hw
    have heq := hs.after_version hv
    have hversion : c.tracker.version =
        (Tracker.empty.run (es.filterMap Clientset.Event.call?)).version :=
      congrArg Tracker.version htracker
    omega
  · intro b c' h
    exact readsBack_of_write hc hK hp (.inl fun _ => rfl) h
  · intro b c' h
    exact readsBack_of_write hc hK hp (.inr fun _ => rfl) h

/-- A knife that says when it was made, but no namespace to speak of, is read back while others
write elsewhere, and while a second create of it and a delete that is only tried come to
nothing. -/
theorem created_knife_reads_back :
    let api : FakeApi := ⟨⟨"test.kubegen.dev", "v1", "Knife", "knives"⟩⟩
    let noon : Timestamp := ⟨⟨2024, 2, 29, by decide⟩, 12, 0, 0, 0⟩
    let made : ObjectMeta := { ObjectMeta.named "a" with creationTimestamp := some noon }
    let knife : Knife := ⟨{ made with ns := some "" }, ["sharp", "blunt"]⟩
    let other : Erased := ⟨none, .named "a", .null⟩
    let es : List Clientset.Event := [.call (.add ConfigMap.resource.gvr other)]
    let fs : List Clientset.Event := [.call (.delete ConfigMap.resource.gvr "" "a" .none),
      .request Knife.asKind api (.create knife .none),
      .request Knife.asKind api (.delete "a" "" { DeleteParams.none with dryRun := true })]
    ∃ b c', Knife.asKind.Faithful ∧ PostParams.none.dryRun = false ∧
      ((api.calls Knife.asKind).create knife .none).run
        ((Clientset.ofScheme .empty).after es) = (.ok b, c') ∧
      (∀ e ∈ c'.tracker.history (fs.filterMap Clientset.Event.call?),
        ¬ e.Touches api.resource.gvr (keyOf Knife.asKind knife)) ∧
      b = ⟨{ made with resourceVersion := some "2" }, ["sharp", "blunt"]⟩ ∧
      (((api.calls Knife.asKind).get "a" "" ⟨none⟩).run (c'.after fs)).1 = .ok b := by
  intro api noon made knife other es fs
  set run := ((api.calls Knife.asKind).create knife .none).run
    ((Clientset.ofScheme .empty).after es) with hrun
  obtain ⟨b, hb⟩ : ∃ b, run.1 = .ok b := by
    have hok : run.1.isOk = true := by decide +kernel
    cases h : run.1 with
    | ok b => exact ⟨b, rfl⟩
    | error e =>
      rw [h] at hok
      cases hok
  have hcreated : run = (.ok b, run.2) := Prod.ext hb rfl
  have huntouched : ∀ e ∈ run.2.tracker.history (fs.filterMap Clientset.Event.call?),
      ¬ (e.isEffective = true ∧
        e.call.target? = some (api.resource.gvr, keyOf Knife.asKind knife)) := by
    decide +kernel
  obtain ⟨-, hcreate, -⟩ := written_objects_read_back Knife.faithful .empty es api knife
    (p := .none) rfl
  obtain ⟨hanswer, hgets⟩ := hcreate b run.2 hcreated
  refine ⟨b, run.2, Knife.faithful, rfl, hcreated, huntouched, ?_, hgets fs ⟨none⟩ huntouched⟩
  rw [hanswer]
  decide +kernel

end FakeApi
end ClusterKit
