/-
# Convergence of informers

In each round the changes on their way to the cache lead from there to what a
list has now, whatever others do meanwhile: while the answer to the list is on
its way they lead there from that answer, and afterwards from the cache. No step
leads out of this (`Scene.Inv`), and so the cache is that of a list whenever
nothing is on its way, but for what a selected watch does not tell.

Key definitions: `Scene.leftByList`, `Scene.Inv`, `Scene.Leaves`.
Key theorems: `Scene.Inv.own`, `Scene.Leaves.inv`, `Scene.caught_up_cache_is_exact`.
-/
import ClusterKit.Proofs.Informer.Schedule

namespace ClusterKit
namespace Scene

open Tracker

variable {α : Type}

/-- The changes that the informer's watch is still going to deliver. -/
def onItsWay (K : Kind α) (s : Scene α) : List (Change α) :=
  match s.running.watch with
  | some l => l.onItsWay K s.tracker
  | none => []

/-- The keys of `left` that are still left over when a list is made now: those that
a change on its way is about. -/
def leftByList (K : Kind α) (left : ObjectKey → Prop) (s : Scene α) (k : ObjectKey) : Prop :=
  left k ∧ ∃ c ∈ s.onItsWay K, Cache.refOf K c.object = k.ref

theorem leftByList_nothing (K : Kind α) (s : Scene α) :
    s.leftByList K (fun _ => False) = fun _ => False := by
  funext k
  simp [leftByList]

section

variable (K : Kind α) (api : FakeApi) (ns : String) (sel : Selector)

/-- The cluster is tame, and what is on its way leads to a selected list, but for what is
left over: from the answer to the list while that has not got to the cache, and from
the cache afterwards. -/
structure Inv (left : ObjectKey → Prop) (s : Scene α) : Prop where
  tame : s.cluster.Tame K api
  follows : ∀ l, s.running.watch = some l → ∃ b,
    Follows K sel api.resource.gvr ns s.tracker l
      (s.tracker.Agrees K sel api.resource.gvr ns left) b ∧
    (s.phase = .listing → ∀ found, s.answer = some (.ok found) → b = .replace K found.items) ∧
    (s.phase = .following → b = s.cache)

end

section

variable (K : Kind α) (api : FakeApi) (ns : String) (cfg : Config) (sel : Selector)

/-- What may have happened since the informer was started on a new cluster, and the keys
that what is on its way leaves over then: each call of others may add some, a new watch
begins with none, and a list keeps those that an earlier change is still coming for. -/
inductive Leaves : (ObjectKey → Prop) → Scene α → Prop
  | start (scheme : Scheme) (clock : Span) : Leaves (fun _ => False) (start scheme clock)
  | others (h : Leaves left s) (hd : FakeApi.Disturbs K api s.feed? s.cluster c) :
      Leaves (leftAfter sel api.resource.gvr ns s.tracker c.tracker left) { s with cluster := c }
  | openWatch (h : Leaves left s) (hp : s.phase = .opening) :
      Leaves (fun _ => False) (s.openWatch K api ns cfg)
  | callList (h : Leaves left s) (hp : s.phase = .listing) (ha : s.answer = none) :
      Leaves (s.leftByList K left) (s.callList K api ns cfg)
  | own (h : Leaves left s) (ho : Own K api ns cfg s s') : Leaves left s'

end

variable {K : Kind α} {api : FakeApi} {ns : String} {cfg : Config} {sel : Selector}
  {left : ObjectKey → Prop} {s s' : Scene α}

theorem inv_start (scheme : Scheme) (clock : Span) :
    Inv K api ns sel left (start scheme clock) := by
  refine ⟨⟨Clientset.isDefault_ofScheme scheme, tame_empty⟩, ?_⟩
  intro l hl
  cases hl

/-! ### Steps of others -/

/-- What others do leads to the next list, but for what they take out of it. -/
theorem Inv.others (h : Inv K api ns sel left s) (hK : K.Faithful) {c : Clientset}
    (hd : FakeApi.Disturbs K api s.feed? s.cluster c) :
    Inv K api ns sel (leftAfter sel api.resource.gvr ns s.tracker c.tracker left)
      { s with cluster := c } := by
  refine ⟨hd.tame h.tame, ?_⟩
  intro l hl
  obtain ⟨b, hb, hrest⟩ := h.follows l hl
  have hfeed : s.feed? = l.feed := by
    unfold feed?
    rw [show s.running.watch = some l from hl, Option.bind_some]
  exact ⟨b, Follows.disturbed hK h.tame hb (hfeed ▸ hd), hrest⟩

/-! ### Steps of the informer -/

theorem objects_settle (K : Kind α) (l : LiveWatcher α) (t : Tracker) :
    (l.settle K t).2.objects = t.objects := by
  obtain ⟨w, feed⟩ := l
  cases feed with
  | none => rfl
  | some f =>
    have hdrain : (t.drain f.subscription).2.objects = t.objects := objects_tend t (.drain _)
    unfold LiveWatcher.settle LiveWatcher.receive LiveWatcher.letGo
    dsimp only
    split <;> exact hdrain

/-- What happens to the informer leaves the objects alone; the watch is kept or given up. -/
theorem inv_act {a : Informer.Act α} (h : s.cluster.Tame K api)
    (hb : ∀ l, s.running.watch = some l → ∃ b,
      Follows K sel api.resource.gvr ns s.tracker l
      (s.tracker.Agrees K sel api.resource.gvr ns left) b ∧
      ((s.running.informer.act K a).phase = .following →
        b = (s.running.informer.act K a).cache)) :
    Inv K api ns sel left (s.act K api ns cfg a) := by
  have hleave : Inv K api ns sel left (Scene.mk
      (Running.act.leave (backend K api ns) cfg s.running s.cluster
        (s.running.informer.act K a)).1
      (Running.act.leave (backend K api ns) cfg s.running s.cluster
        (s.running.informer.act K a)).2 none) := by
    refine ⟨?_, ?_⟩
    · unfold Running.act.leave
      cases s.running.watch with
      | none => exact h
      | some l => exact h.of_objects (objects_settle K _ _)
    · intro l hl
      cases hl
  unfold act Running.act
  dsimp only
  split
  · exact hleave
  · exact hleave
  · refine ⟨h, ?_⟩
    intro l hl
    obtain ⟨b, hf, hcache⟩ := hb l hl
    exact ⟨b, hf, nofun, hcache⟩

/-- Where the informer does not follow afterwards, nothing is to be shown of its cache. -/
theorem Inv.act_of_phase (h : Inv K api ns sel left s) {a : Informer.Act α}
    (ha : (s.running.informer.act K a).phase ≠ .following) :
    Inv K api ns sel left (s.act K api ns cfg a) := by
  refine inv_act h.tame ?_
  intro l hw
  obtain ⟨b, hb, -⟩ := h.follows l hw
  exact ⟨b, hb, fun hphase => absurd hphase ha⟩

/-- The watch that an informer opens is fed by a new subscription. -/
theorem openWatch_eq (h : s.cluster.Tame K api)
    (hsel : Selector.parseOptional cfg.params.labelSelector = .ok sel)
    (hp : s.phase = .opening) : ∃ c : Clientset, c.Tame K api ∧
      c.tracker = (s.tracker.watch api.resource.gvr ns).2 ∧
      s.openWatch K api ns cfg = Scene.act K api ns cfg (.opened (.ok ()))
        ⟨{ s.running with watch := some (.ofSource api.resource (.tracker
          ⟨(s.tracker.watch api.resource.gvr ns).1, sel⟩)) }, c, none⟩ := by
  obtain ⟨c, hrun, hc, ht⟩ := FakeApi.watch_eq K api ns h hsel
  have hwatch : (backend K api ns).watch cfg.params s.cluster = (.done (.ok (.ofSource api.resource
      (.tracker ⟨(s.tracker.watch api.resource.gvr ns).1, sel⟩))), c) := by
    show (Completion.done (((api.calls K).watch ns cfg.params).run s.cluster).1,
      (((api.calls K).watch ns cfg.params).run s.cluster).2) = _
    rw [hrun]
    rfl
  refine ⟨c, hc, ht, ?_⟩
  unfold openWatch act Running.openWatch
  rw [show s.running.informer.phase = .opening from hp, hwatch]

/-- A watch that has just been opened leads to a list, since nothing is on its way. -/
theorem inv_openWatch (h : s.cluster.Tame K api)
    (hsel : Selector.parseOptional cfg.params.labelSelector = .ok sel)
    (hp : s.phase = .opening) :
    Inv K api ns sel (fun _ => False) (s.openWatch K api ns cfg) := by
  obtain ⟨c, htame, ht, hopened⟩ := openWatch_eq h hsel hp
  have hi : s.running.informer.act K (.opened (.ok ())) = s.running.informer.enter .listing := by
    unfold Informer.act Informer.act?
    rw [show s.running.informer.phase = .opening from hp]
  rw [hopened]
  refine inv_act htame ?_
  intro l hw
  cases hw
  refine ⟨c.tracker.cacheOf K (K.selected? sel) api.resource.gvr ns, ?_, ?_⟩
  · have hlisted : c.tracker.Agrees K sel api.resource.gvr ns (fun _ => False)
        (c.tracker.cacheOf K (K.selected? sel) api.resource.gvr ns) := .refl _
    have hfollows := Follows.ofWatch K sel api.resource api.resource.gvr ns s.tracker hlisted
    rw [← ht] at hfollows
    exact hfollows
  · intro hphase
    rw [show Informer.act K _ s.running.informer = _ from hi] at hphase
    cases hphase

/-- The answer to the list may be followed from as well as what was followed from so far,
and nothing is left over then but what is still on its way. -/
theorem Inv.callList (h : Inv K api ns sel left s) (hK : K.Faithful)
    (hsel : Selector.parseOptional cfg.params.labelSelector = .ok sel)
    (hp : s.phase = .listing) :
    Inv K api ns sel (s.leftByList K left) (s.callList K api ns cfg) := by
  obtain ⟨found, c, hrun, hc, ht, hfound⟩ := FakeApi.list_eq K api ns hK h.tame hsel
  have hcalled : s.callList K api ns cfg = ⟨s.running, c, some (.ok found)⟩ := by
    unfold Scene.callList
    rw [hrun]
  rw [hcalled]
  refine ⟨hc, ?_⟩
  intro l hw
  obtain ⟨b, hb, -⟩ := h.follows l hw
  refine ⟨.replace K found.items, ?_, ?_, ?_⟩
  · intro hlive
    obtain ⟨id, q, hf, hs, happ⟩ := hb hlive
    have hway : s.onItsWay K = l.watcher.pending K ++ queuedChanges K sel q := by
      unfold onItsWay
      rw [show s.running.watch = some l from hw]
      exact LiveWatcher.onItsWay_eq hf hs
    rw [hfound]
    refine ⟨id, q, hf, ?_, ?_⟩
    · show c.tracker.IsSubscribed id _ ns q
      rw [ht]
      exact hs
    · show c.tracker.Agrees K sel _ ns (s.leftByList K left) _
      unfold leftByList
      rw [ht, hway]
      exact happ.relist
  · intro _ found' hfound'
    cases hfound'
    rfl
  · intro hphase
    cases hp.symm.trans hphase

theorem Inv.replace (h : Inv K api ns sel left s) (hp : s.phase = .listing)
    {r : Except ClientError (ObjectList α)} (ha : s.answer = some r) :
    Inv K api ns sel left (s.act K api ns cfg (.listed r)) := by
  refine inv_act h.tame ?_
  intro l hw
  obtain ⟨b, hb, hlist, -⟩ := h.follows l hw
  refine ⟨b, hb, ?_⟩
  have hphase : s.running.informer.phase = .listing := hp
  unfold Informer.act Informer.act?
  rw [hphase]
  cases r with
  | ok found =>
    intro _
    exact hlist hp found ha
  | error e => exact nofun

theorem Inv.turn (h : Inv K api ns sel left s) {l l' : LiveWatcher α} {t : Tracker}
    (hw : s.running.watch = some l) (ht : l.Turn K s.tracker l' t) :
    Inv K api ns sel left ((s.withTracker t).withWatch l') := by
  refine ⟨h.tame.of_objects ht.objects, ?_⟩
  intro l'' hl''
  cases hl''
  obtain ⟨b, hb, hrest⟩ := h.follows l hw
  exact ⟨b, (hb.turn ht).imp fun s' hs' => hs'.of_objects ht.objects, hrest⟩

theorem Inv.apply (h : Inv K api ns sel left s) {l : LiveWatcher α} {a : Watcher.Act}
    {w : Watcher α} {c : Change α} (hp : s.phase = .following) (hw : s.running.watch = some l)
    (hact : l.watcher.act? K a = some (w, some (some c))) :
    Inv K api ns sel left
      ((s.withWatch { l with watcher := w }).act K api ns cfg (.received c)) := by
  refine inv_act h.tame ?_
  intro l' hl'
  cases hl'
  obtain ⟨b, hb, -, hcache⟩ := h.follows l hw
  refine ⟨_, hb.read hact, ?_⟩
  intro _
  have hphase : s.running.informer.phase = .following := hp
  show b.apply K c = (Informer.act K (.received c) s.running.informer).cache
  unfold Informer.act Informer.act?
  rw [hphase, hcache hp]
  rfl

theorem Inv.watchEnded (h : Inv K api ns sel left s) {l : LiveWatcher α} {a : Watcher.Act}
    {v w : Watcher α} (hp : s.phase = .following) (hw : s.running.watch = some l)
    (hact : l.watcher.act? K a = some (v, some none)) (hm : v.Moves K w) :
    Inv K api ns sel left
      ((s.withWatch { l with watcher := w }).act K api ns cfg (.ended w.termination)) := by
  refine inv_act h.tame ?_
  intro l' hl'
  cases hl'
  obtain ⟨b, hb, -⟩ := h.follows l hw
  refine ⟨b, (hb.read hact).turn (.move hm), ?_⟩
  have hphase : s.running.informer.phase = .following := hp
  show (Informer.act K (.ended w.termination) s.running.informer).phase = .following → _
  unfold Informer.act Informer.act?
  rw [hphase]
  exact nofun

/-- The informer and its watch do not lead away from the list. -/
theorem Inv.own (h : Inv K api ns sel left s) (ho : Own K api ns cfg s s') :
    Inv K api ns sel left s' := by
  cases ho with
  | replace hp ha => exact h.replace hp ha
  | turn hw ht => exact h.turn hw ht
  | apply hp hw hact => exact h.apply hp hw hact
  | watchEnded hp hw hact hm => exact h.watchEnded hp hw hact hm
  | retry hr =>
    have hphase : s.running.informer.phase = .resting := by
      unfold Running.restsUntil at hr
      exact eq_of_beq (Bool.and_eq_true_iff.mp hr).1
    apply h.act_of_phase
    unfold Informer.act Informer.act?
    rw [hphase]
    exact nofun
  | cancel =>
    apply h.act_of_phase
    unfold Informer.act Informer.act?
    cases hphase : s.running.informer.phase <;> simp [hphase, Informer.enter]
  | pass t => exact ⟨h.tame, h.follows⟩

/-! ### Whole runs -/

/-- Some keys are left over after each run. -/
theorem reachable_iff_exists_leaves (K : Kind α) (api : FakeApi) (ns : String) (cfg : Config)
    (sel : Selector) (s : Scene α) :
    Reachable K api ns cfg s ↔ ∃ left, Leaves K api ns cfg sel left s := by
  constructor
  · intro h
    induction h with
    | start scheme clock => exact ⟨_, .start scheme clock⟩
    | step _ hs ih =>
      obtain ⟨left, hl⟩ := ih
      cases hs with
      | others hd => exact ⟨_, hl.others hd⟩
      | openWatch hp => exact ⟨_, hl.openWatch hp⟩
      | callList hp ha => exact ⟨_, hl.callList hp ha⟩
      | own ho => exact ⟨_, hl.own ho⟩
  · rintro ⟨left, hl⟩
    induction hl with
    | start scheme clock => exact .start scheme clock
    | others _ hd ih => exact ih.step (.others hd)
    | openWatch _ hp ih => exact ih.step (.openWatch hp)
    | callList _ hp ha ih => exact ih.step (.callList hp ha)
    | own _ ho ih => exact ih.own ho

/-- Where everything is selected, nothing is left over. -/
theorem Leaves.nothing (h : Leaves K api ns cfg .everything left s) : left = fun _ => False := by
  induction h with
  | start scheme clock => rfl
  | others _ hd ih => rw [ih, leftAfter_everything]
  | openWatch _ hp => rfl
  | callList _ hp ha ih => rw [ih, leftByList_nothing]
  | own _ ho ih => exact ih

theorem Leaves.inv (h : Leaves K api ns cfg sel left s) (hK : K.Faithful)
    (hsel : Selector.parseOptional cfg.params.labelSelector = .ok sel) :
    Inv K api ns sel left s := by
  induction h with
  | start scheme clock => exact inv_start scheme clock
  | others _ hd ih => exact ih.others hK hd
  | openWatch _ hp ih => exact inv_openWatch ih.tame hsel hp
  | callList _ hp _ ih => exact ih.callList hK hsel hp
  | own _ ho ih => exact ih.own ho

/-! ### Caught up -/

/-- The cache of an informer that has caught up is that of a list, but for what is left over. -/
theorem Inv.exceeds (h : Inv K api ns sel left s) (hc : s.isCaughtUp = true) :
    s.tracker.Agrees K sel api.resource.gvr ns left s.cache := by
  obtain ⟨hp, hwatch⟩ := Bool.and_eq_true_iff.mp hc
  obtain ⟨l, hw, hdrained⟩ := (Option.any_eq_true _ _).mp hwatch
  obtain ⟨b, hb, -, hcache⟩ := h.follows l hw
  rw [← hcache (eq_of_beq hp)]
  exact hb.of_isDrained hdrained

/-- **Informer convergence.** Start an informer without a selector on a new cluster, for
a faithful kind, and let others write through apis of the kind between any two of
its steps, while its list is answered, when its watch ends and when it tries again.
Whenever its round has listed and each change that its watch was told of has been
applied, the cache has exactly what the stored objects of the namespace stand for,
by the references of their keys; and each of them stands for something. -/
theorem caught_up_cache_is_exact (hK : K.Faithful) (hall : cfg.params.labelSelector = none)
    (h : Reachable K api ns cfg s) (hc : s.isCaughtUp = true) :
    (∀ x a, s.cache.entries.get? x = some a ↔
      ∃ k o, k.ref = x ∧ s.tracker.find? api.resource.gvr k = some o ∧
        Subscription.covers ns k.ns = true ∧ K.restore o = .ok a) ∧
    ∀ k o, s.tracker.find? api.resource.gvr k = some o → Subscription.covers ns k.ns = true →
      ∃ a, K.restore o = .ok a ∧ s.cache.entries.get? k.ref = some a := by
  obtain ⟨left, hl⟩ := (reachable_iff_exists_leaves K api ns cfg .everything s).mp h
  obtain rfl := hl.nothing
  have hinv := hl.inv hK (by rw [hall]; rfl)
  have hreads : s.tracker.Reads K (K.selected? .everything) api.resource.gvr :=
    hinv.tame.tracker.reads hK
  have hcache := (hinv.exceeds hc).eq_iff.mpr fun _ hk => hk
  have hview : ∀ x a, s.cache.entries.get? x = some a ↔
      ∃ k o, k.ref = x ∧ s.tracker.find? api.resource.gvr k = some o ∧
        Subscription.covers ns k.ns = true ∧ K.restore o = .ok a := by
    intro x a
    rw [hcache, get?_cacheOf_eq_some hreads]
    simp only [listed?_eq_some, Kind.selected?_eq_some]
    constructor
    · rintro ⟨k, hx, hcov, o, ho, -, ha⟩
      exact ⟨k, o, hx, ho, hcov, ha⟩
    · rintro ⟨k, o, hx, ho, hcov, ha⟩
      exact ⟨k, hx, hcov, o, ho, rfl, ha⟩
  refine ⟨hview, ?_⟩
  intro k o ho hcov
  obtain ⟨a, ha, -⟩ := hinv.tame.tracker.restore hK ho
  exact ⟨a, ha, (hview _ _).mpr ⟨k, o, rfl, ho, hcov, ha⟩⟩

/-- One knife gets into the list and is thrown away before the list gets to the cache,
and another one is made; the first comes and goes again as the watch is followed. -/
theorem knives_caught_up_after_race :
    let api : FakeApi := ⟨⟨"test.kubegen.dev", "v1", "Knife", "knives"⟩⟩
    ∃ s : Scene Knife, Reachable Knife.asKind api "x" .standard s ∧ s.isCaughtUp = true ∧
      s.cache.entries.toList.map (·.1) = [⟨some "x", "b"⟩] ∧
      ∀ x a, s.cache.entries.get? x = some a ↔
        ∃ k o, k.ref = x ∧ s.tracker.find? api.resource.gvr k = some o ∧
          Subscription.covers "x" k.ns = true ∧ Knife.asKind.restore o = .ok a := by
  intro api
  have hstart : Reachable Knife.asKind api "x" .standard (start .empty ⟨0⟩) := .start _ _
  have hmade := (hstart.step (.openWatch rfl)).step (.others
    (.request (.create ⟨{ ObjectMeta.named "a" with ns := some "x" }, ["sharp"]⟩ .none)))
  have hlisted := hmade.step (.callList (by decide) rfl)
  have hchanged := (hlisted.step (.others (.request (.delete "a" "x" .none)))).step (.others
    (.request (.create ⟨{ ObjectMeta.named "b" with ns := some "x" }, ["blunt"]⟩ .none)))
  have hsettled := (hchanged.own (.replace (by decide) rfl)).settle rfl
  obtain ⟨s, hs, hcaught, hkeys⟩ : ∃ s : Scene Knife, Reachable Knife.asKind api "x" .standard s ∧
      s.isCaughtUp = true ∧ s.cache.entries.toList.map (·.1) = [⟨some "x", "b"⟩] :=
    ⟨_, hsettled, by decide +kernel, by decide +kernel⟩
  exact ⟨s, hs, hcaught, hkeys, (caught_up_cache_is_exact Knife.faithful rfl hs hcaught).1⟩

end Scene
end ClusterKit
