/-
# Lists and gets of a fake cluster

A list goes through a collection in the order of the keys and picks what is selected, while a
get looks one object up by its key. They show the same objects because each object is kept at
the key that its metadata say, and is read with the metadata that it is kept with. The
latter takes objects without other metadata among their data. Requests store no others, and
calls on the tracker do not if they are made with objects that have been read. An object that
someone has given other metadata is listed under a name that no get finds.

Key definitions: `ObjectKey.Before`, `Tracker.Tidy`, `Clientset.Event.Tidy`.
Key theorems: `Clientset.tidy_after`, `Tracker.mem_selected`, `Tracker.pairwise_selected`,
`FakeApi.lists_agree_with_gets`.
-/
import Mathlib.Data.String.Basic
import ClusterKit.Proofs.Fake.RoundTrip
import ClusterKit.Proofs.Fake.Selected
import ClusterKit.Proofs.Kind.Metadata

namespace ClusterKit

/-! ### The order of keys -/

namespace ObjectKey

/-- The key at which an object with the metadata belongs. -/
def ofMeta (m : ObjectMeta) : ObjectKey :=
  ⟨m.ns.getD "", m.name.getD ""⟩

/-- The first key comes before the second, by namespace and then by name. -/
def Before (j k : ObjectKey) : Prop :=
  j.ns < k.ns ∨ j.ns = k.ns ∧ j.name < k.name

theorem before_iff {j k : ObjectKey} : j.Before k ↔ compare j k = .lt := by
  have hcompare : compare j k = (compare j.ns k.ns).then (compare j.name k.name) := rfl
  rw [hcompare, Ordering.then_eq_lt, compare_lt_iff_lt, compare_eq_iff_eq, compare_lt_iff_lt]
  rfl

end ObjectKey

/-! ### Objects without other metadata -/

namespace Tracker

/-- No object of the collection has other metadata among its data. -/
def Tidy (t : Tracker) (r : GroupVersionResource) : Prop :=
  ∀ k o, t.find? r k = some o → o.Tidy

/-- What the call is to store has no other metadata among its data. -/
def Call.Tidy (c : Call) : Prop :=
  ∀ o, c.object? = some o → o.Tidy

theorem tidy_empty (r : GroupVersionResource) : empty.Tidy r := by
  intro k o h
  rw [find?_empty] at h
  cases h

/-- What is stored has the data that came with the call. -/
theorem Entry.tidy_after {e : Entry} {r : GroupVersionResource} (h : e.before.Tidy r)
    (hc : e.call.Tidy) : e.after.Tidy r := by
  -- only a call that stores something can bring an object that was not there before
  intro k o ho
  rcases e.quiet_or_makes with hq | ⟨m, hm⟩
  · rw [hq.after, find?_tend] at ho
    exact h k o ho
  · rw [hm.after, find?_commit] at ho
    split at ho
    · obtain ⟨o', hcall, -, hdata⟩ := hm.body o ho
      intro ds hds
      exact hc o' hcall ds (hdata ▸ hds)
    · exact h k o ho

theorem tidy_run {r : GroupVersionResource} {cs : List Call} : ∀ {t : Tracker}, t.Tidy r →
    (∀ c ∈ cs, c.Tidy) → (t.run cs).Tidy r := by
  induction cs with
  | nil => exact fun h _ => h
  | cons c cs ih =>
    intro t h hcs
    obtain ⟨hc, hcs⟩ := List.forall_mem_cons.mp hcs
    exact ih (Entry.tidy_after (e := ⟨t, c⟩) h hc) hcs

/-- A list is in the order of the keys at which its objects belong. -/
theorem Placed.pairwise_list {t : Tracker} (h : t.Placed) (r : GroupVersionResource)
    (ns : String) : (t.list r ns).items.Pairwise fun o o' =>
      (ObjectKey.ofMeta o.metadata).Before (.ofMeta o'.metadata) := by
  refine List.pairwise_map.mpr (List.Pairwise.imp_of_mem ?_ (Table.filter _ _).ascending)
  intro e f he hf hlt
  have hown : ∀ e ∈ ((t.collection r).filter fun k _ => Subscription.covers ns k.ns).entries,
      ObjectKey.ofMeta e.2.metadata = e.1 := fun e he =>
    (h r e.1 e.2 (Table.mem_toList_iff.mp (List.mem_filter.mp he).1)).key_eq
  rw [hown e he, hown f hf]
  exact ObjectKey.before_iff.mpr hlt

end Tracker

/-- What is erased has no other metadata among its data. -/
theorem Kind.tidy_of_erase {K : Kind α} {r : ApiResource} {a : α} {o : Erased}
    (h : K.erase r a = .ok o) : o.Tidy := by
  obtain ⟨v, -, h⟩ := bind_eq_ok.mp h
  obtain ⟨e, he, h⟩ := bind_eq_ok.mp h
  cases h
  intro ds hds
  exact Erased.tidy_of_reader (Json.Reader.ofJson_eq_ok.mp he) ds hds

namespace Clientset

/-- A call on the tracker stores no object with other metadata among its data. -/
def Event.Tidy : Event → Prop
  | .request _ _ _ => True
  | .call d => d.Tidy

theorem Event.tidy_of_call? {e : Event} (h : e.Tidy) {d : Tracker.Call} (hd : e.call? = some d) :
    d.Tidy := by
  cases e with
  | request K api q =>
    intro o ho
    obtain ⟨a, ha⟩ := FakeApi.Request.exists_erase_of_call? hd ho
    exact Kind.tidy_of_erase ha
  | call c =>
    cases hd
    exact h

/-- A collection gets other metadata only by a call on the tracker. -/
theorem tidy_after {c : Clientset} {r : GroupVersionResource} (hc : c.IsDefault)
    (h : c.tracker.Tidy r) {es : List Event} (hes : ∀ e ∈ es, e.Tidy) :
    (c.after es).tracker.Tidy r := by
  rw [(after_eq hc es).2]
  refine Tracker.tidy_run h fun d hd => ?_
  obtain ⟨e, he, hcall⟩ := List.mem_filterMap.mp hd
  exact Event.tidy_of_call? (hes e he) hcall

end Clientset

/-! ### What is listed -/

namespace Tracker

variable {α : Type} {K : Kind α} {t : Tracker} {r : GroupVersionResource} {ns : String}
  {sel : Selector} {a : α}

section

variable (hK : K.ReadsMetadata) (hp : t.Placed) (ht : t.Tidy r)

include hK hp ht

/-- What is restored from a stored object has its metadata, and belongs at its key. -/
theorem own_of_restore {k : ObjectKey} {o : Erased} (ho : t.find? r k = some o)
    (ha : K.restore o = .ok a) : K.metadata a = o.metadata ∧ FakeApi.keyOf K a = k := by
  have hmeta : K.metadata a = o.metadata := hK.metadata_of_restore (ht k o ho) ha
  refine ⟨hmeta, ?_⟩
  rw [FakeApi.keyOf, hmeta]
  exact (hp r k o ho).key_eq

/-- What is selected of a list is a stored object that is restored to it, which is found at
its own key. -/
theorem mem_selected : a ∈ (t.list r ns).items.filterMap (K.selected? sel) ↔
    (∃ o, t.find? r (FakeApi.keyOf K a) = some o ∧ K.restore o = .ok a) ∧
      (ns = "" ∨ ns = (FakeApi.keyOf K a).ns) ∧
      ∀ q ∈ sel.requirements, q.holds (K.labels a) = true := by
  have hcovers : ∀ k : ObjectKey, Subscription.covers ns k.ns = true ↔ ns = "" ∨ ns = k.ns := by
    intro k
    rw [Subscription.covers, Bool.or_eq_true, String.isEmpty_iff, beq_iff_eq]
  have hselects : ∀ o : Erased, K.metadata a = o.metadata →
      (sel.selects o.metadata.labelTable = true ↔
        ∀ q ∈ sel.requirements, q.holds (K.labels a) = true) := by
    intro o ho
    rw [Selector.selects, List.all_eq_true, ← ho]
    rfl
  rw [List.mem_filterMap, ← hcovers]
  constructor
  · rintro ⟨o, ho, ha⟩
    obtain ⟨k, hk, hcov⟩ := (mem_list_items _ _).mp ho
    obtain ⟨hsel, hread⟩ := Kind.selected?_eq_some.mp ha
    obtain ⟨hmeta, rfl⟩ := own_of_restore hK hp ht hk hread
    exact ⟨⟨o, hk, hread⟩, hcov, (hselects o hmeta).mp hsel⟩
  · rintro ⟨⟨o, hk, hread⟩, hcov, hsel⟩
    have hmeta := (own_of_restore hK hp ht hk hread).1
    exact ⟨o, (mem_list_items _ _).mpr ⟨_, hk, hcov⟩,
      Kind.selected?_eq_some.mpr ⟨(hselects o hmeta).mpr hsel, hread⟩⟩

/-- What is selected of a list is in the order of its own keys. -/
theorem pairwise_selected : ((t.list r ns).items.filterMap (K.selected? sel)).Pairwise
    fun a b => (FakeApi.keyOf K a).Before (FakeApi.keyOf K b) := by
  refine List.pairwise_filterMap.mpr ((hp.pairwise_list r ns).imp_of_mem ?_)
  intro o o' ho ho' hlt a ha b hb
  obtain ⟨k, hk, -⟩ := (mem_list_items _ _).mp ho
  obtain ⟨k', hk', -⟩ := (mem_list_items _ _).mp ho'
  have hmeta := (own_of_restore hK hp ht hk (Kind.selected?_eq_some.mp ha).2).1
  have hmeta' := (own_of_restore hK hp ht hk' (Kind.selected?_eq_some.mp hb).2).1
  unfold FakeApi.keyOf
  rw [hmeta, hmeta']
  exact hlt

end

end Tracker

/-! ### Looking up and listing -/

namespace FakeApi

variable {α : Type} {K : Kind α} {api : FakeApi} {c : Clientset}

/-- A selector that cannot be read fails a list. -/
theorem run_list_of_error (hc : c.IsDefault) {ns : String} {p : ListParams}
    {e : SelectorError} (hp : Selector.parseOptional p.labelSelector = .error e) :
    (((api.calls K).list ns p).run c).1 =
      .error (.api (.invalid api.resource.gvr "" e.message)) := by
  have hrun : (((api.calls K).list ns p).run c).1 =
      (c.invoke (api.action ns (.list p))).1.bind (typedList K) :=
    congrArg Prod.fst (run_invoke _ _ _)
  rw [hrun, Clientset.invoke_eq hc]
  simp only [Tracker.react, action, Tracker.selector, hp]
  rfl

theorem tracker_run_list (hc : c.IsDefault) (ns : String) (p : ListParams) :
    (((api.calls K).list ns p).run c).2.tracker = c.tracker :=
  (Request.run_eq K api hc (.list ns p)).2

theorem tracker_run_get (hc : c.IsDefault) (name ns : String) (gp : GetParams) :
    (((api.calls K).get name ns gp).run c).2.tracker = c.tracker :=
  (Request.run_eq K api hc (.get name ns gp)).2

/-- Whether all objects of a collection can be restored is seen from its list. -/
theorem exists_restore_of_list {t : Tracker} {r : GroupVersionResource}
    (h : ∀ o ∈ (t.list r "").items, (K.restore o).isOk = true) {k : ObjectKey} {o : Erased}
    (ho : t.find? r k = some o) : ∃ a, K.restore o = .ok a := by
  have hok := h o ((Tracker.mem_list_items _ _).mpr ⟨k, ho, rfl⟩)
  cases hr : K.restore o with
  | ok a => exact ⟨a, rfl⟩
  | error e =>
    rw [hr] at hok
    cases hok

/-- **Lists agree with gets.** Whatever has happened to a cluster, by requests of all kinds and by
calls on its tracker, a list fails as invalid if its selector cannot be read. Otherwise, if all
objects of the collection can be restored, and none has other metadata among its data, it has each
object that a get of its own name and namespace answers with, that is in the namespace asked for,
and whose labels meet every requirement of the selector, and no other. They come in strict order
of namespace and name, and none has a version beyond that of the list. Neither call changes the
tracker. -/
theorem lists_agree_with_gets (hK : K.ReadsMetadata) (s : Scheme) (es : List Clientset.Event)
    (api : FakeApi) (ns : String) (p : ListParams) :
    let c := (Clientset.ofScheme s).after es
    (∀ e, Selector.parseOptional p.labelSelector = .error e →
      (((api.calls K).list ns p).run c).1 =
        .error (.api (.invalid api.resource.gvr "" e.message))) ∧
    (∀ sel, Selector.parseOptional p.labelSelector = .ok sel →
      (∀ k o, c.tracker.find? api.resource.gvr k = some o → ∃ a, K.restore o = .ok a) →
      c.tracker.Tidy api.resource.gvr →
      ∃ l, (((api.calls K).list ns p).run c).1 = .ok l ∧
        (l.items.Pairwise fun a b => (keyOf K a).Before (keyOf K b)) ∧
        (∀ a gp, a ∈ l.items ↔
          (((api.calls K).get (keyOf K a).name (keyOf K a).ns gp).run c).1 = .ok a ∧
            (ns = "" ∨ ns = (keyOf K a).ns) ∧
            ∀ q ∈ sel.requirements, q.holds (K.labels a) = true) ∧
        ∃ m : Nat, l.metadata.resourceVersion = some (toString m) ∧
          ∀ a ∈ l.items, ∃ n ≤ m, (K.metadata a).resourceVersion = some (toString n)) ∧
    (((api.calls K).list ns p).run c).2.tracker = c.tracker ∧
    ∀ name gp, (((api.calls K).get name ns gp).run c).2.tracker = c.tracker := by
  intro c
  obtain ⟨hc, htracker⟩ := Clientset.after_eq (Clientset.isDefault_ofScheme s) es
  refine ⟨fun e he => run_list_of_error hc he, fun sel hsel hall htidy => ?_,
    tracker_run_list hc ns p, fun name gp => tracker_run_get hc name ns gp⟩
  have hplaced : c.tracker.Placed := htracker ▸ Tracker.placed_run Tracker.placed_empty _
  have hrestored : ∀ o ∈ (c.tracker.list api.resource.gvr ns).items,
      ∃ a, K.restore o = .ok a := by
    intro o ho
    obtain ⟨k, hk, -⟩ := (Tracker.mem_list_items _ _).mp ho
    exact hall k o hk
  refine ⟨_, congrArg Prod.fst (run_list K api ns hc hsel hrestored),
    Tracker.pairwise_selected hK hplaced htidy, fun a gp => ?_, c.tracker.version, rfl,
    fun a ha => ?_⟩
  · rw [run_get_eq_ok hc]
    exact Tracker.mem_selected hK hplaced htidy
  · obtain ⟨⟨o, ho, hread⟩, -⟩ := (Tracker.mem_selected hK hplaced htidy).mp ha
    rw [(Tracker.own_of_restore hK hplaced htidy ho hread).1]
    rw [htracker] at ho ⊢
    obtain ⟨n, -, hn, hversion⟩ := Tracker.version_of_find? ho
    exact ⟨n, hn, hversion⟩

/-- Of three knives, one of which has come by a call on the tracker, those with a label are
listed by namespace, and a get answers with the one that was not created. -/
theorem knives_are_listed_as_got :
    let api : FakeApi := ⟨⟨"test.kubegen.dev", "v1", "Knife", "knives"⟩⟩
    let labelled (ns name tier : String) : ObjectMeta :=
      { ObjectMeta.named name with ns := some ns, labels := some (.ofList [("tier", tier)]) }
    let raw : Erased := ⟨none, labelled "a" "raw" "web", .fields [("edges", .list [.text "dull"])]⟩
    let es : List Clientset.Event :=
      [.request Knife.asKind api (.create ⟨labelled "b" "one" "web", ["sharp"]⟩ .none),
        .call (.add api.resource.gvr raw),
        .request Knife.asKind api (.create ⟨labelled "a" "two" "db", []⟩ .none)]
    let c := (Clientset.ofScheme .empty).after es
    let p : ListParams := { ListParams.none with labelSelector := some "tier in (web)" }
    let dull : Knife := ⟨{ labelled "a" "raw" "web" with resourceVersion := some "2" }, ["dull"]⟩
    Knife.asKind.ReadsMetadata ∧ c.tracker.Tidy api.resource.gvr ∧
      (∀ k o, c.tracker.find? api.resource.gvr k = some o → ∃ a, Knife.asKind.restore o = .ok a) ∧
      ∃ l, (((api.calls Knife.asKind).list "" p).run c).1 = .ok l ∧
        l.items.map (keyOf Knife.asKind) = [⟨"a", "raw"⟩, ⟨"b", "one"⟩] ∧
        (((api.calls Knife.asKind).get "raw" "a" ⟨none⟩).run c).1 = .ok dull := by
  intro api labelled raw es c p dull
  have hes : ∀ e ∈ es, e.Tidy := by
    have hraw : (Tracker.Call.add api.resource.gvr raw).Tidy := by
      intro o ho ds hds
      cases ho
      cases hds
      exact ⟨List.pairwise_singleton _ _, by decide⟩
    exact List.forall_mem_cons.mpr ⟨trivial, List.forall_mem_cons.mpr
      ⟨hraw, List.forall_mem_singleton.mpr trivial⟩⟩
  have htidy : c.tracker.Tidy api.resource.gvr :=
    Clientset.tidy_after (Clientset.isDefault_ofScheme .empty) (Tracker.tidy_empty _) hes
  have hall : ∀ k o, c.tracker.find? api.resource.gvr k = some o →
      ∃ a, Knife.asKind.restore o = .ok a :=
    fun _ _ => exists_restore_of_list (by decide +kernel)
  have hsel : Selector.parseOptional p.labelSelector =
      .ok ⟨[.oneOf "tier" (TextSet.ofList ["web"])]⟩ := by decide +kernel
  obtain ⟨-, hlist, -⟩ := lists_agree_with_gets Knife.readsMetadata .empty es api "" p
  obtain ⟨l, hl, -, hmem, -⟩ := hlist _ hsel hall htidy
  have hitems : (((api.calls Knife.asKind).list "" p).run c).1.toOption.map (·.items) =
      some [dull, ⟨{ labelled "b" "one" "web" with resourceVersion := some "1" }, ["sharp"]⟩] := by
    decide +kernel
  rw [hl] at hitems
  have hlitems := Option.some.inj hitems
  refine ⟨Knife.readsMetadata, htidy, hall, l, hl, ?_, ?_⟩
  · rw [show l.items = _ from hlitems]
    decide +kernel
  · refine ((hmem dull ⟨none⟩).mp ?_).1
    rw [show l.items = _ from hlitems]
    exact List.mem_cons_self

/-- A knife that someone has added with other metadata among its data, as no reading makes it, can
be restored, but is listed under a name that no get finds. -/
theorem knives_with_other_metadata_are_not_found :
    let api : FakeApi := ⟨⟨"test.kubegen.dev", "v1", "Knife", "knives"⟩⟩
    let raw : Erased :=
      ⟨none, .named "a", .fields [("metadata", .fields [("name", .text "b")])]⟩
    let c := (Clientset.ofScheme .empty).after [.call (.add api.resource.gvr raw)]
    Knife.asKind.ReadsMetadata ∧
      (∀ k o, c.tracker.find? api.resource.gvr k = some o → ∃ a, Knife.asKind.restore o = .ok a) ∧
      (((api.calls Knife.asKind).list "" .none).run c).1.toOption.map (·.items) =
        some [⟨.named "b", []⟩] ∧
      (((api.calls Knife.asKind).get "b" "" ⟨none⟩).run c).1 =
        .error (.api (.notFound api.resource.gvr "b")) := by
  intro api raw c
  refine ⟨Knife.readsMetadata, fun _ _ => exists_restore_of_list (by decide +kernel), ?_⟩
  decide +kernel

end FakeApi
end ClusterKit
