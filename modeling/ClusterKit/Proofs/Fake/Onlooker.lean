/-
# Onlookers

Someone watches a typed collection while others write to it, and reads on. What
has been read is at any time a beginning of what the writes tell, in their order;
what is missing is on its way, so that one who reads on gets it too; and the
watch does not end, unless it is stopped. All this is so for types that are
written under no other names than those of the resource; any others end it.

The invariant is that all that the subscription has been sent fits the type, and
comes to what the writes tell (`LiveWatcher.IsTold`).

Key definitions: `LiveWatcher.IsTold`, `Onlooker`, `Onlooker.Step`, `Onlooker.IsServed`.
Key theorems: `LiveWatcher.IsTold.after`, `Onlooker.Step.keeps`, `Onlooker.Keeps.isServed`,
`Onlooker.reads_what_writes_tell`.
-/
import Mathlib.Logic.Relation
import ClusterKit.Proofs.Fake.Told
import ClusterKit.Proofs.Tracker.Subscription
import ClusterKit.Proofs.Watch.Serving

namespace ClusterKit

open Tracker

variable {α : Type} {K : Kind α} {r : ApiResource}

/-! ### Watches without a selector -/

/-- A call that is not on the collection tells nothing of it. -/
theorem Tracker.Entry.told?_of_not_target {e : Entry} {r : GroupVersionResource} {ns : String}
    {f : Erased → Option α} (h : ∀ k, e.call.target? ≠ some (r, k)) : e.told? f r ns = none := by
  unfold Entry.told?
  cases hc : e.change? r ns with
  | none => rfl
  | some c =>
    obtain ⟨k, ht, -⟩ := Entry.change?_iff.mp hc
    exact absurd ht.2 (h k)

namespace LiveWatcher

theorem filter_passes_everything (id : Nat) (es : List (WatchEvent Erased)) :
    es.filter (Feed.mk id .everything).passes = es := by
  apply List.filter_eq_self.mpr
  intro e _
  unfold Feed.passes
  cases e.object? <;> rfl

/-- The watch has a subscription to the namespace, of which it has been sent the events `es`
and `q` is queued; all of these fit, and what they come to is what it was to tell. -/
structure IsToldBy (K : Kind α) (r : ApiResource) (ns : String) (t : Tracker)
    (told seen : List (Change α)) (l : LiveWatcher α) (id : Nat) (es q : List (WatchEvent Erased)) :
    Prop where
  feed : l.feed = some ⟨id, .everything⟩
  subscribed : t.IsSubscribed id r.gvr ns q
  fits : ∀ e ∈ es ++ q, e.Fits K r
  told : Forwarded.changes K r ((es ++ q).map .ok) = told
  serves : l.watcher.Serves K r es seen

/-- The watch is told by a subscription what it was to tell, of which `seen` has been read. -/
def IsTold (K : Kind α) (r : ApiResource) (ns : String) (t : Tracker) (told seen : List (Change α))
    (l : LiveWatcher α) : Prop :=
  ∃ id es q, l.IsToldBy K r ns t told seen id es q

variable {ns : String} {t : Tracker} {told seen : List (Change α)} {l : LiveWatcher α}

theorem isTold_ofWatch (K : Kind α) (r : ApiResource) (ns : String) (t : Tracker) :
    IsTold K r ns (t.watch r.gvr ns).2 [] []
      (.ofSource r (.tracker ⟨(t.watch r.gvr ns).1, .everything⟩)) := by
  refine ⟨_, [], [], rfl, isSubscribed_watch t r.gvr ns, ?_, rfl, Watcher.serves_ofItems K r⟩
  intro e he
  cases he

/-- What is queued moves on to the watcher. -/
theorem IsToldBy.receive {id : Nat} {es q : List (WatchEvent Erased)}
    (h : l.IsToldBy K r ns t told seen id es q) :
    IsToldBy K r ns (t.drain id).2 told seen
      { l with
        watcher := receiveAll K
          (((t.drain id).1.filter (Feed.mk id .everything).passes).map .ok) l.watcher }
      id (es ++ q) [] where
  feed := h.feed
  subscribed := h.subscribed.drain.2
  fits := by
    rw [List.append_nil]
    exact h.fits
  told := by
    rw [List.append_nil]
    exact h.told
  serves := by
    rw [filter_passes_everything, h.subscribed.drain.1]
    exact h.serves.receiveAll fun e he => h.fits e (List.mem_append_right _ he)

namespace IsTold

/-- What a call of others tells joins what the watch was to tell. -/
theorem after {e : Entry} (hK : K.Faithful) (hbinds : K.Binds r) (hb : e.before.Tame K r)
    (ha : e.after.Tame K r) (h : l.IsTold K r ns e.before told seen)
    (hown : ∀ f, l.feed = some f → e.call.subscription? ≠ some f.subscription) :
    l.IsTold K r ns e.after (told ++ (e.told? K.restored? r.gvr ns).toList) seen := by
  obtain ⟨id, es, q, hf, hs, hfits, htold, hw⟩ := h
  have hnew : ∀ c, e.change? r.gvr ns = some c → c.event.Fits K r :=
    fun c hc => e.fits_change? hK hbinds hb ha hc
  refine ⟨id, es, _, hf, hs.after_of_others hb.placed (hown _ hf), ?_, ?_, hw⟩
  · rw [← List.append_assoc]
    intro event hevent
    rcases List.mem_append.mp hevent with hold | hadded
    · exact hfits event hold
    · obtain ⟨c, hc, rfl⟩ := Option.map_eq_some_iff.mp (Option.mem_toList.mp hadded)
      exact hnew c hc
  · rw [← List.append_assoc, List.map_append,
      Forwarded.changes_append _ (Forwarded.changes_of_fits hfits).1, htold]
    congr 1
    unfold Entry.told?
    cases hc : e.change? r.gvr ns with
    | none => rfl
    | some c => exact Forwarded.changes_event (hnew c hc)

/-- The pump or the one who reads makes a move, by which no end is read. -/
theorem act (h : l.IsTold K r ns t told seen) {a : Watcher.Act} {w : Watcher α}
    {out : Option (Option (Change α))} (hw : l.watcher.act? K a = some (w, out))
    (ha : a.isInside = true) :
    IsTold K r ns t told (seen ++ out.join.toList) { l with watcher := w } := by
  obtain ⟨id, es, q, hf, hs, hfits, htold, hserves⟩ := h
  exact ⟨id, es, q, hf, hs, hfits, htold, (hserves.act hw ha).1⟩

end IsTold
end LiveWatcher

/-! ### Onlookers -/

/-- Who reads a watch on a cluster to which others write: the watch, the cluster, what the
requests since the watch was opened tell, and what has been read. -/
structure Onlooker (α : Type) where
  watch : LiveWatcher α
  cluster : Clientset
  told : List (Change α)
  read : List (Change α)

namespace Onlooker

section

variable (K : Kind α) (api : FakeApi) (ns : String)

/-- The onlooker after a request of someone. -/
def ask (v : Onlooker α) (q : FakeApi.Request α) : Onlooker α :=
  { v with
    cluster := q.run K api v.cluster
    told := v.told ++ (q.tells K api ns v.cluster).toList }

/-- What may happen next: a request through an api of the type, seeds apart, which are for
new clusters; a call on the tracker that neither writes to the collection nor is on the
receiver of the watch; what is queued moves on to the watcher; the pump moves; the onlooker
reads; or the watch lets go of its feed when its pump has ended. -/
inductive Step (v : Onlooker α) : Onlooker α → Prop
  | request (q : FakeApi.Request α) (hq : q.isSeed = false) : Step v (v.ask K api ns q)
  | others (d : Tracker.Call) (hd : ∀ k, d.target? ≠ some (api.resource.gvr, k))
      (hown : ∀ f, v.watch.feed = some f → d.subscription? ≠ some f.subscription) :
      Step v { v with
        cluster := { v.cluster with tracker := (v.cluster.tracker.perform d).2 } }
  | receive {f : Feed} (hf : v.watch.feed = some f) :
      Step v { v with
        watch := { v.watch with
          watcher := LiveWatcher.receiveAll K
            (((v.cluster.tracker.drain f.subscription).1.filter f.passes).map .ok)
            v.watch.watcher }
        cluster := { v.cluster with tracker := (v.cluster.tracker.drain f.subscription).2 } }
  | move {a : Watcher.Act} {w : Watcher α} (ha : a.isInside = true)
      (hw : v.watch.watcher.act? K a = some (w, none)) :
      Step v { v with watch := { v.watch with watcher := w } }
  | read {a : Watcher.Act} {w : Watcher α} {c : Change α}
      (hw : v.watch.watcher.act? K a = some (w, some (some c))) :
      Step v { v with watch := { v.watch with watcher := w }, read := v.read ++ [c] }
  | letGo {f : Feed} (hf : v.watch.feed = some f) (hp : v.watch.watcher.isPumping = false) :
      Step v { v with
        watch := { v.watch with feed := none }
        cluster := { v.cluster with tracker := v.cluster.tracker.unsubscribe f.subscription } }

end

variable {api : FakeApi} {ns : String} {v v' : Onlooker α}

/-- An onlooker may see any requests one after the other. -/
theorem reaches_asks (K : Kind α) (api : FakeApi) (ns : String) {qs : List (FakeApi.Request α)}
    (hqs : ∀ q ∈ qs, q.isSeed = false) : ∀ v : Onlooker α,
    Relation.ReflTransGen (Step K api ns) v (qs.foldl (ask K api ns) v) := by
  induction qs with
  | nil => exact fun _ => .refl
  | cons q qs ih =>
    intro v
    exact .head (.request q (hqs q List.mem_cons_self))
      (ih (fun q hq => hqs q (List.mem_cons_of_mem _ hq)) _)

/-- The collection is typed, and the watch is told what the requests tell. -/
structure Keeps (K : Kind α) (api : FakeApi) (ns : String) (v : Onlooker α) : Prop where
  tame : v.cluster.Tame K api
  isTold : v.watch.IsTold K api.resource ns v.cluster.tracker v.told v.read

theorem Step.keeps (hK : K.Faithful) (hbinds : K.Binds api.resource) (h : v.Step K api ns v')
    (hv : v.Keeps K api ns) : v'.Keeps K api ns := by
  obtain ⟨hc, hl⟩ := hv
  cases h with
  | request q hq =>
    have hdisturbs : FakeApi.Disturbs K api v.watch.feed v.cluster (q.run K api v.cluster) :=
      .request q
    have hafter := hdisturbs.tame hc
    refine ⟨hafter, ?_⟩
    obtain ⟨-, ht⟩ := FakeApi.Request.run_eq K api hc.isDefault q
    have htracker := hafter.tracker
    dsimp only [ask]
    rw [FakeApi.Request.tells_eq hK hc.isDefault hq, ht]
    rw [ht] at htracker
    cases hd : q.call? K api with
    | none => simpa using hl
    | some d =>
      rw [hd] at htracker
      refine hl.after (e := ⟨v.cluster.tracker, d⟩) hK hbinds hc.tracker htracker ?_
      intro f _
      rw [FakeApi.Request.subscription?_of_call? hd]
      exact nofun
  | others d hd hown =>
    have hdisturbs : FakeApi.Disturbs K api v.watch.feed v.cluster
        { v.cluster with tracker := (v.cluster.tracker.perform d).2 } := .call d hd hown
    have hafter := hdisturbs.tame hc
    refine ⟨hafter, ?_⟩
    have htold := hl.after (e := ⟨v.cluster.tracker, d⟩) hK hbinds hc.tracker hafter.tracker hown
    rw [Entry.told?_of_not_target hd, Option.toList_none, List.append_nil] at htold
    exact htold
  | receive hf =>
    obtain ⟨id, es, q, htold⟩ := hl
    obtain rfl := Option.some.inj (hf.symm.trans htold.feed)
    exact ⟨hc.of_objects (objects_tend _ (.drain _)), id, es ++ q, [], htold.receive⟩
  | move ha hw => exact ⟨hc, by simpa using hl.act hw ha⟩
  | read hw => exact ⟨hc, hl.act hw (Watcher.Act.isInside_of_read hw)⟩
  | letGo hf hp =>
    obtain ⟨id, es, q, -, -, -, -, hserves⟩ := hl
    cases hserves.thrives.pumping.symm.trans hp

/-- What an onlooker can rely on: it reads a beginning of what is told, in its order; when
nothing is on its way any more it has read all, and it gets there by reading on; the watch
works; and no end is read from it. -/
structure IsServed (K : Kind α) (v : Onlooker α) : Prop where
  ordered : v.read <+: v.told
  complete : v.watch.isDrained v.cluster.tracker = true → v.read = v.told
  readsOn : v.watch.watcher.consumer = .idle → ∃ rest w,
    (v.watch.settle K v.cluster.tracker).1.watcher.readAll K = (rest, false, w) ∧
      v.read ++ rest = v.told
  goesOn : v.watch.watcher.isLive = true ∧ v.watch.watcher.termination = none
  endless : ∀ a w, v.watch.watcher.act? K a ≠ some (w, some none)

theorem Keeps.isServed (hv : v.Keeps K api ns) : v.IsServed K := by
  obtain ⟨id, es, q, hl⟩ := hv.isTold
  refine ⟨?_, ?_, ?_, ⟨hl.serves.thrives.isLive, hl.serves.termination⟩, ?_⟩
  · rw [← hl.told, List.map_append]
    exact hl.serves.read_prefix.trans (Forwarded.changes_prefix _ _ _ _)
  · intro hdrained
    unfold LiveWatcher.isDrained at hdrained
    simp only [Bool.and_eq_true] at hdrained
    obtain ⟨⟨-, hempty⟩, hqueued⟩ := hdrained
    rw [hl.feed, Option.all_some, hl.subscribed.queued, List.isEmpty_iff] at hqueued
    rw [hl.serves.read_eq hempty, ← hl.told, hqueued, List.append_nil]
  · intro hidle
    have hall := hl.receive.serves
    have hconsumer := (LiveWatcher.consumer_receiveAll K
      (((v.cluster.tracker.drain id).1.filter (Feed.mk id .everything).passes).map .ok)
      v.watch.watcher).trans hidle
    have hcalm := (hall.flow.settle (hall.isCalm hconsumer)).1
    obtain ⟨rest, w, hread, hrest⟩ := hall.settle.readAll hl.fits hcalm.consumer
    refine ⟨rest, w, ?_, hrest.trans hl.told⟩
    rw [← hread]
    unfold LiveWatcher.settle LiveWatcher.receive LiveWatcher.letGo
    rw [hl.feed]
    dsimp only
    split <;> rfl
  · intro a w hw
    have hsome := hl.serves.sound.read_end (Watcher.move_of_act? hw)
    rw [hl.serves.termination] at hsome
    cases hsome

end Onlooker

/-- One who reads on from the beginning reads all that was told. -/
theorem Onlooker.IsServed.readsAll {v : Onlooker α} (h : v.IsServed K)
    (hidle : v.watch.watcher.consumer = .idle) (hread : v.read = []) :
    ∃ w, (v.watch.settle K v.cluster.tracker).1.watcher.readAll K = (v.told, false, w) := by
  obtain ⟨rest, w, hrest, htold⟩ := h.readsOn hidle
  rw [hread, List.nil_append] at htold
  exact ⟨w, htold ▸ hrest⟩

/-- **Watching typed writes.** Take an api of a faithful kind, which names no other type than the
resource where it writes the names of a type at all, on a cluster that apis of the kind may have
got to from a new one, with others at work elsewhere. Open a watch of a namespace, or of all for
the empty name, without a label selector, and let any requests through apis of the kind follow,
and anything that others do elsewhere, with any moves of the watch in between. Each request that
succeeds in writing to an object of the namespace, and does not only try, tells just one change:
a create or an update the object that it answers with, and a delete the one that a get is
answered with just before. What is read is at any time a beginning of what was told, in the order
of the requests; one who reads on gets all of it; and the watch works, and no end is read. -/
theorem Onlooker.reads_what_writes_tell {api : FakeApi} {c₀ : Clientset} (hK : K.Faithful)
    (hnames : K.NamesOnly api.resource) (hc : FakeApi.Reached K api c₀) (ns : String)
    {p : ListParams} (hp : p.labelSelector = none) :
    ∃ l c, ((api.calls K).watch ns p).run c₀ = (.ok l, c) ∧
      ∀ v, Relation.ReflTransGen (Onlooker.Step K api ns) ⟨l, c, [], []⟩ v →
        v.IsServed K ∧
        ∀ q : FakeApi.Request α, q.isHeard K api ns v.cluster = true →
          ∃ d, q.tells K api ns v.cluster = some d := by
  have hsel : Selector.parseOptional p.labelSelector = .ok .everything := by rw [hp]; rfl
  obtain ⟨c, hwatch, htame, ht⟩ := FakeApi.watch_eq K api ns hc.tame hsel
  refine ⟨_, c, hwatch, ?_⟩
  intro v hv
  have hkeeps : v.Keeps K api ns := by
    induction hv with
    | refl => exact ⟨htame, ht ▸ LiveWatcher.isTold_ofWatch K api.resource ns c₀.tracker⟩
    | tail _ hstep ih => exact hstep.keeps hK (hK.binds hnames) ih
  exact ⟨hkeeps.isServed, fun q hq => FakeApi.Request.exists_tells hK hkeeps.tame hq⟩

/-- Of knives that come, change and go, the one who watches the shop is told, but not of one in the
kitchen, one that is there already, and a change that is only tried. Of namespaces, which name
their type, the one who watches all of them is told. -/
theorem Onlooker.knives_and_namespaces_are_read_as_written :
    (let s := Scheme.empty.register "Knife" ⟨"test.kubegen.dev", "v1", "Knife"⟩
    let api : FakeApi := ⟨⟨"test.kubegen.dev", "v1", "Knife", "knives"⟩⟩
    let knife (ns : String) (edges : List String) : Knife :=
      ⟨{ ObjectMeta.named "a" with ns := some ns }, edges⟩
    let stored (version : String) (edges : List String) : Knife :=
      ⟨{ ObjectMeta.named "a" with ns := some "shop", resourceVersion := some version }, edges⟩
    let qs : List (FakeApi.Request Knife) := [.create (knife "shop" []) .none,
      .create (knife "kitchen" []) .none, .create (knife "shop" []) .none,
      .update (knife "shop" ["sharp"]) { PostParams.none with dryRun := true },
      .update (knife "shop" ["blunt"]) .none, .delete "a" "shop" .none]
    Knife.asKind.Faithful ∧ Knife.asKind.NamesOnly api.resource ∧
    FakeApi.bind Knife.asKind (.ofScheme s) = .ok api ∧
    FakeApi.Reached Knife.asKind api (.ofScheme s) ∧ ListParams.none.labelSelector = none ∧
    ∃ l c, ((api.calls Knife.asKind).watch "shop" .none).run (.ofScheme s) = (.ok l, c) ∧
      let v := qs.foldl (Onlooker.ask Knife.asKind api "shop") ⟨l, c, [], []⟩
      Relation.ReflTransGen (Onlooker.Step Knife.asKind api "shop") ⟨l, c, [], []⟩ v ∧
      v.IsServed Knife.asKind ∧ ∃ w,
        (v.watch.settle Knife.asKind v.cluster.tracker).1.watcher.readAll Knife.asKind =
          ([.added (stored "1" []), .modified (stored "3" ["blunt"]),
            .deleted (stored "3" ["blunt"])], false, w)) ∧
    (let api : FakeApi := ⟨Namespace.resource⟩
    let space (phase : String) : Namespace := ⟨.named "a", none, some (some phase)⟩
    let stored (version phase : String) : Namespace :=
      ⟨{ ObjectMeta.named "a" with resourceVersion := some version }, none, some (some phase)⟩
    let qs : List (FakeApi.Request Namespace) := [.create (space "Active") .none,
      .update (space "Terminating") .none, .delete "a" "" .none]
    Namespace.asKind.Faithful ∧ Namespace.asKind.NamesOnly api.resource ∧
    FakeApi.bind Namespace.asKind (.ofScheme .empty) = .ok api ∧
    FakeApi.Reached Namespace.asKind api (.ofScheme .empty) ∧
    ∃ l c, ((api.calls Namespace.asKind).watch "" .none).run (.ofScheme .empty) = (.ok l, c) ∧
      let v := qs.foldl (Onlooker.ask Namespace.asKind api "") ⟨l, c, [], []⟩
      Relation.ReflTransGen (Onlooker.Step Namespace.asKind api "") ⟨l, c, [], []⟩ v ∧
      v.IsServed Namespace.asKind ∧ ∃ w,
        (v.watch.settle Namespace.asKind v.cluster.tracker).1.watcher.readAll Namespace.asKind =
          ([.added (stored "1" "Active"), .modified (stored "2" "Terminating"),
            .deleted (stored "2" "Terminating")], false, w)) := by
  constructor
  · intro s api knife stored qs
    have hnames := Knife.isUnnamed.namesOnly api.resource
    obtain ⟨l, c, hrun, hserved⟩ := Onlooker.reads_what_writes_tell Knife.faithful hnames
      (.start s) "shop" (p := .none) rfl
    refine ⟨Knife.faithful, hnames, by decide +kernel, .start s, rfl, l, c, hrun, ?_⟩
    intro v
    have hreach : Relation.ReflTransGen (Onlooker.Step Knife.asKind api "shop") ⟨l, c, [], []⟩ v :=
      Onlooker.reaches_asks _ _ _ (by decide) _
    have hv := (hserved v hreach).1
    have hl : l = .ofSource api.resource (.tracker ⟨0, .everything⟩) :=
      Except.ok.inj (congrArg Prod.fst hrun).symm
    have hc : c = (((api.calls Knife.asKind).watch "shop" .none).run (.ofScheme s)).2 :=
      (congrArg Prod.snd hrun).symm
    have htold : v.told = [.added (stored "1" []), .modified (stored "3" ["blunt"]),
        .deleted (stored "3" ["blunt"])] := by
      subst hl hc
      decide +kernel
    exact ⟨hreach, hv, htold ▸ hv.readsAll (by subst hl; rfl) rfl⟩
  · intro api space stored qs
    have hnames : Namespace.asKind.NamesOnly api.resource := Namespace.namesOnly
    obtain ⟨l, c, hrun, hserved⟩ := Onlooker.reads_what_writes_tell Namespace.faithful hnames
      (.start .empty) "" (p := .none) rfl
    refine ⟨Namespace.faithful, hnames, by decide +kernel, .start .empty, l, c, hrun, ?_⟩
    intro v
    have hreach : Relation.ReflTransGen (Onlooker.Step Namespace.asKind api "") ⟨l, c, [], []⟩ v :=
      Onlooker.reaches_asks _ _ _ (by decide) _
    have hv := (hserved v hreach).1
    have hl : l = .ofSource api.resource (.tracker ⟨0, .everything⟩) :=
      Except.ok.inj (congrArg Prod.fst hrun).symm
    have hc : c = (((api.calls Namespace.asKind).watch "" .none).run (.ofScheme .empty)).2 :=
      (congrArg Prod.snd hrun).symm
    have htold : v.told = [.added (stored "1" "Active"), .modified (stored "2" "Terminating"),
        .deleted (stored "2" "Terminating")] := by
      subst hl hc
      decide +kernel
    exact ⟨hreach, hv, htold ▸ hv.readsAll (by subst hl; rfl) rfl⟩

/-- Knives that are written as forks are read back, and describe the resource that they are bound
to; but the first one that is created ends the watch, before anything has been read of it. -/
theorem Onlooker.forks_end_the_watch :
    let r : ApiResource := ⟨"test.kubegen.dev", "v1", "Knife", "knives"⟩
    let api : FakeApi := ⟨r⟩
    let knife : Knife := ⟨.named "a", ["sharp"]⟩
    let stored : Knife := ⟨{ ObjectMeta.named "a" with resourceVersion := some "1" }, ["sharp"]⟩
    Knife.asFork.Faithful ∧ Knife.asFork.identity.resource? = some r ∧
    FakeApi.bind Knife.asFork (.ofScheme .empty) = .ok api ∧
    FakeApi.Reached Knife.asFork api (.ofScheme .empty) ∧
    ∃ l c, ((api.calls Knife.asFork).watch "" .none).run (.ofScheme .empty) = (.ok l, c) ∧
      let v := Onlooker.ask Knife.asFork api "" ⟨l, c, [], []⟩ (.create knife .none)
      Relation.ReflTransGen (Onlooker.Step Knife.asFork api "") ⟨l, c, [], []⟩ v ∧
      (((api.calls Knife.asFork).create knife .none).run c).1 = .ok stored ∧
      v.told = [.added stored] ∧
      let (read, ended, w) :=
        (v.watch.settle Knife.asFork v.cluster.tracker).1.watcher.readAll Knife.asFork
      read = [] ∧ ended = true ∧ w.termination = some (.mismatch "Fork") := by
  intro r api knife stored
  refine ⟨Knife.faithful_asFork, rfl, by decide +kernel, .start .empty, _, _, rfl, ?_⟩
  intro v
  exact ⟨.single (.request _ rfl), by decide +kernel, by decide +kernel, by decide +kernel⟩

end ClusterKit
