/-
# Selected watches

A selected watch and a selected list do not agree on objects that are relabelled:
one that the selector does not select any more goes out of the list, and the
watch does not tell of it. This is all that they disagree on. Whoever follows the
watch from a list has all that a list has now, and besides it just the objects
that have been left over in this way; and so has an informer with the selector.

Key definitions: `LiveWatcher.Delivers`, `FakeApi.Watched`.
Key theorems: `LiveWatcher.Delivers.follows`, `selected_watch_exceeds_list`.
-/
import ClusterKit.Proofs.Informer.Convergence
import ClusterKit.Proofs.Watch.Lasting

namespace ClusterKit

open Tracker

variable {α : Type}

namespace LiveWatcher

/-- The changes that a watch `l₀` on the cluster `c₀` may have delivered since, among
others, and the keys that it has left over: each call of others may add some. -/
inductive Delivers (K : Kind α) (api : FakeApi) (ns : String) (sel : Selector)
    (l₀ : LiveWatcher α) (c₀ : Clientset) :
    List (Change α) → (ObjectKey → Prop) → LiveWatcher α → Clientset → Prop
  | opened : Delivers K api ns sel l₀ c₀ [] (fun _ => False) l₀ c₀
  | others (h : Delivers K api ns sel l₀ c₀ cs left l c)
      (hd : FakeApi.Disturbs K api l.feed c c') :
      Delivers K api ns sel l₀ c₀ cs
        (leftAfter sel api.resource.gvr ns c.tracker c'.tracker left) l c'
  | turn (h : Delivers K api ns sel l₀ c₀ cs left l c) (ht : l.Turn K c.tracker l' t) :
      Delivers K api ns sel l₀ c₀ cs left l' { c with tracker := t }
  | read (h : Delivers K api ns sel l₀ c₀ cs left l c)
      (hr : l.watcher.act? K a = some (w, some (some d))) :
      Delivers K api ns sel l₀ c₀ (cs ++ [d]) left { l with watcher := w } c

variable {K : Kind α} {api : FakeApi} {ns : String} {sel : Selector} {l₀ l : LiveWatcher α}
  {c₀ c : Clientset} {cs : List (Change α)} {left : ObjectKey → Prop}

theorem Delivers.tame (h : Delivers K api ns sel l₀ c₀ cs left l c) (hc : c₀.Tame K api) :
    c.Tame K api := by
  induction h with
  | opened => exact hc
  | others _ hd ih => exact hd.tame ih
  | turn _ ht ih => exact ih.of_objects ht.objects
  | read _ _ ih => exact ih

/-- What is on its way leads from what has been delivered to a selected list, but for what
is left over. -/
theorem Delivers.follows (h : Delivers K api ns sel l₀ c₀ cs left l c) (hK : K.Faithful)
    (hc : c₀.Tame K api) {b : Cache α} (hb : Follows K sel api.resource.gvr ns c₀.tracker l₀
      (c₀.tracker.Agrees K sel api.resource.gvr ns fun _ => False) b) :
    Follows K sel api.resource.gvr ns c.tracker l
      (c.tracker.Agrees K sel api.resource.gvr ns left) (Cache.replay K cs b) := by
  induction h with
  | opened => exact hb
  | others h hd ih => exact ih.disturbed hK (h.tame hc) hd
  | turn _ ht ih => exact (ih.turn ht).imp fun s hs => hs.of_objects ht.objects
  | read _ hr ih =>
    rw [Cache.replay_append]
    exact ih.read hr

/-- A watch on a typed collection goes on. -/
theorem Delivers.lasts (h : Delivers K api ns sel l₀ c₀ cs left l c) (hK : K.Faithful)
    (hbinds : K.Binds api.resource) (hc : c₀.Tame K api)
    (hl : l₀.Lasts K sel api.resource ns c₀.tracker) :
    l.Lasts K sel api.resource ns c.tracker := by
  induction h with
  | opened => exact hl
  | others h hd ih => exact ih.disturbed hK hbinds (h.tame hc) hd
  | turn _ ht ih => exact ih.turn ht
  | read _ hr ih => exact ih.act hr

end LiveWatcher

variable {K : Kind α} {api : FakeApi} {ns : String} {p : ListParams} {sel : Selector}

/-- A list finds what a cache that agrees with the tracker has, but for what is left over. -/
theorem FakeApi.exceeds_list (hK : K.Faithful)
    (hsel : Selector.parseOptional p.labelSelector = .ok sel) {c : Clientset} (hc : c.Tame K api)
    {left : ObjectKey → Prop} {s : Cache α}
    (hs : c.tracker.Agrees K sel api.resource.gvr ns left s) :
    ∃ now c', ((api.calls K).list ns p).run c = (.ok now, c') ∧
      s.Exceeds (.replace K now.items) left ∧ (s = .replace K now.items ↔ ∀ k, ¬ left k) := by
  obtain ⟨now, c', hrun, -, -, hnow⟩ := FakeApi.list_eq K api ns hK hc hsel
  have hexceeds : s.Exceeds (.replace K now.items) left := hnow ▸ hs
  exact ⟨now, c', hrun, hexceeds, hexceeds.eq_iff⟩

/-- A list that is made when a watch has been opened has what is there then, and leaves
the watch as it is. -/
theorem FakeApi.watch_and_list (ns : String) (hK : K.Faithful)
    (hsel : Selector.parseOptional p.labelSelector = .ok sel) {c₀ : Clientset}
    (hc : c₀.Tame K api) : ∃ c₁ found c₂,
      ((api.calls K).watch ns p).run c₀ = (.ok (.ofSource api.resource
        (.tracker ⟨(c₀.tracker.watch api.resource.gvr ns).1, sel⟩)), c₁) ∧
      ((api.calls K).list ns p).run c₁ = (.ok found, c₂) ∧ c₂.Tame K api ∧
      c₂.tracker = (c₀.tracker.watch api.resource.gvr ns).2 ∧
      Cache.replace K found.items =
        c₂.tracker.cacheOf K (K.selected? sel) api.resource.gvr ns := by
  obtain ⟨c₁, hwatch, hc₁, ht₁⟩ := FakeApi.watch_eq K api ns hc hsel
  obtain ⟨found, c₂, hlist, hc₂, ht₂, hfound⟩ := FakeApi.list_eq K api ns hK hc₁ hsel
  refine ⟨c₁, found, c₂, hwatch, hlist, hc₂, ht₂.trans ht₁, ?_⟩
  rw [hfound, ht₂]

/-- **Selected watches.** For a faithful kind and a selector that parses, open a watch on
a cluster that apis of the kind may have got to from a new one, and make a list.
Unless it is stopped the watch goes on, if the kind is that of the resource. Whenever
all has been read that it was told of, what it has delivered leads from that list to
all that a list has now, and beyond that to something just at the keys that are left
over: those at which a listed object has been replaced by one that is not selected,
and no selected one stored since. So it leads to the list itself just if there is no
such key. The same holds of the cache of an informer with this selector, since the
changes that it applied, whenever it has caught up. -/
theorem selected_watch_exceeds_list (hK : K.Faithful)
    (hsel : Selector.parseOptional p.labelSelector = .ok sel) :
    (∀ c₀, FakeApi.Reached K api c₀ → ∃ l₀ c₁ found c₂,
      ((api.calls K).watch ns p).run c₀ = (.ok l₀, c₁) ∧
      ((api.calls K).list ns p).run c₁ = (.ok found, c₂) ∧
      ∀ cs left l c, LiveWatcher.Delivers K api ns sel l₀ c₂ cs left l c →
        (K.Binds api.resource → l.watcher.isCut = false → l.watcher.isLive = true) ∧
        (l.isDrained c.tracker = true →
          ∃ now c', ((api.calls K).list ns p).run c = (.ok now, c') ∧
            (Cache.replay K cs (.replace K found.items)).Exceeds (.replace K now.items) left ∧
            (Cache.replay K cs (.replace K found.items) = .replace K now.items ↔
              ∀ k, ¬ left k))) ∧
    ∀ cfg : Config, cfg.params = p → ∀ left s, Scene.Leaves K api ns cfg sel left s →
      s.isCaughtUp = true →
        ∃ now c', ((api.calls K).list ns p).run s.cluster = (.ok now, c') ∧
          s.cache.Exceeds (.replace K now.items) left ∧
          (s.cache = .replace K now.items ↔ ∀ k, ¬ left k) := by
  refine ⟨?_, ?_⟩
  · intro c₀ hreached
    obtain ⟨c₁, found, c₂, hwatch, hlist, htame, ht, hfound⟩ :=
      FakeApi.watch_and_list ns hK hsel hreached.tame
    refine ⟨_, c₁, found, c₂, hwatch, hlist, ?_⟩
    intro cs left l c hdelivers
    constructor
    · intro hbinds hcut
      have hlasts := LiveWatcher.lasts_ofWatch K sel api.resource ns c₀.tracker
      rw [← ht] at hlasts
      exact ((hdelivers.lasts hK hbinds htame hlasts) hcut).1.isLive
    · intro hdrained
      have hagrees : c₂.tracker.Agrees K sel api.resource.gvr ns (fun _ => False)
          (.replace K found.items) := by
        rw [hfound]
        exact .refl _
      have hfollows := Follows.ofWatch K sel api.resource api.resource.gvr ns c₀.tracker hagrees
      rw [← ht] at hfollows
      exact FakeApi.exceeds_list hK hsel (hdelivers.tame htame)
        ((hdelivers.follows hK htame hfollows).of_isDrained hdrained)
  · rintro cfg rfl left s hleaves hc
    have hinv := hleaves.inv hK hsel
    exact FakeApi.exceeds_list hK hsel hinv.tame (hinv.exceeds hc)

/-! ### Relabelled knives -/

/-- The references at which a cache has something. -/
def Cache.refs (s : Cache α) : List ObjectRef :=
  s.entries.toList.map (·.1)

/-- A list was made as a watch was opened and has found `found`, the watch has delivered
`cs` since, which is all that it was told of, and a list finds `now`. -/
def FakeApi.Watched (K : Kind α) (api : FakeApi) (ns : String) (p : ListParams) (sel : Selector)
    (found : ObjectList α) (cs : List (Change α)) (left : ObjectKey → Prop)
    (now : ObjectList α) : Prop :=
  ∃ c₀ l₀ c₁ c₂ l c c', FakeApi.Reached K api c₀ ∧
    ((api.calls K).watch ns p).run c₀ = (.ok l₀, c₁) ∧
    ((api.calls K).list ns p).run c₁ = (.ok found, c₂) ∧
    LiveWatcher.Delivers K api ns sel l₀ c₂ cs left l c ∧ l.isDrained c.tracker = true ∧
    ((api.calls K).list ns p).run c = (.ok now, c')

/-- A knife is listed as a watch is opened and then relabelled, of which the watch does
not tell; and another one is relabelled before an informer lists, which has still to
hear that it was made. -/
theorem exists_relabelled_knives :
    let api : FakeApi := ⟨⟨"test.kubegen.dev", "v1", "Knife", "knives"⟩⟩
    let p : ListParams := { ListParams.none with labelSelector := some "app=web" }
    let sel : Selector := ⟨[.equal "app" "web"]⟩
    Selector.parseOptional p.labelSelector = .ok sel ∧
    (∃ found left now, FakeApi.Watched Knife.asKind api "x" p sel found [] left now ∧
      (Cache.replace Knife.asKind found.items).refs = [⟨some "x", "a"⟩] ∧
      (Cache.replace Knife.asKind now.items).refs = []) ∧
    ∃ s now c', Scene.Reachable Knife.asKind api "x" { Config.standard with params := p } s ∧
      s.isCaughtUp = true ∧ ((api.calls Knife.asKind).list "x" p).run s.cluster = (.ok now, c') ∧
      s.cache.refs = [⟨some "x", "a"⟩] ∧ (Cache.replace Knife.asKind now.items).refs = [] := by
  intro api p sel
  have hsel : Selector.parseOptional p.labelSelector = .ok sel := rfl
  let knife (app : String) : Knife :=
    ⟨{ (ObjectMeta.named "a").setLabel "app" app with ns := some "x" }, ["sharp"]⟩
  let make : FakeApi.Request Knife := .create (knife "web") .none
  let relabel : FakeApi.Request Knife := .update (knife "db") .none
  refine ⟨hsel, ?_, ?_⟩
  · have hnew : FakeApi.Reached Knife.asKind api (.ofScheme .empty) := .start _
    have hreached := hnew.step (.request make)
    obtain ⟨c₁, found, c₂, hwatch, hlist, htame, ht, hfound⟩ :=
      FakeApi.watch_and_list "x" Knife.faithful hsel hreached.tame
    have hrelabelled : (relabel.run Knife.asKind api c₂).tracker = _ :=
      (relabel.run_eq Knife.asKind api htame.isDefault).2
    rw [ht] at hfound hrelabelled
    have hopened : LiveWatcher.Delivers Knife.asKind api "x" sel (.ofSource api.resource (.tracker
      ⟨((make.run Knife.asKind api (.ofScheme .empty)).tracker.watch api.resource.gvr "x").1, sel⟩))
        c₂ [] (fun _ => False) _ c₂ := .opened
    have hdelivers := (hopened.others (.request relabel)).turn (.receive rfl)
    obtain ⟨now, c', hnow, -, -, hlisted⟩ :=
      FakeApi.list_eq Knife.asKind api "x" Knife.faithful (hdelivers.tame htame) hsel
    refine ⟨found, _, now, ⟨_, _, c₁, c₂, _, _, c', hreached, hwatch, hlist, hdelivers, ?_, hnow⟩,
      ?_, ?_⟩
    · dsimp only
      rw [hrelabelled]
      decide +kernel
    · rw [hfound]
      decide +kernel
    · rw [hlisted]
      dsimp only
      rw [hrelabelled]
      decide +kernel
  · have hnew : Scene.Reachable Knife.asKind api "x" { Config.standard with params := p }
      (.start .empty ⟨0⟩) := .start _ _
    have hmade := (hnew.step (.openWatch rfl)).step (.others (.request make))
    have hsettled := (hmade.step (.others (.request relabel))).settle rfl
    obtain ⟨left, hleaves⟩ := (Scene.reachable_iff_exists_leaves _ _ _ _ sel _).mp hsettled
    obtain ⟨now, c', hnow, -, -, hlisted⟩ := FakeApi.list_eq Knife.asKind api "x" Knife.faithful
      (hleaves.inv Knife.faithful hsel).tame hsel
    refine ⟨_, now, c', hsettled, by decide +kernel, hnow, by decide +kernel, ?_⟩
    rw [hlisted]
    decide +kernel

/-- What the watch of a relabelled knife has delivered does not lead to the list, and what
an informer has cached is not the list. -/
theorem relabelled_knives_stay :
    let api : FakeApi := ⟨⟨"test.kubegen.dev", "v1", "Knife", "knives"⟩⟩
    let p : ListParams := { ListParams.none with labelSelector := some "app=web" }
    let sel : Selector := ⟨[.equal "app" "web"]⟩
    Selector.parseOptional p.labelSelector = .ok sel ∧
    (∃ found cs left now, FakeApi.Watched Knife.asKind api "x" p sel found cs left now ∧
      Cache.replay Knife.asKind cs (.replace Knife.asKind found.items) ≠
        .replace Knife.asKind now.items) ∧
    ∃ s now c', Scene.Reachable Knife.asKind api "x" { Config.standard with params := p } s ∧
      s.isCaughtUp = true ∧ ((api.calls Knife.asKind).list "x" p).run s.cluster = (.ok now, c') ∧
      s.cache ≠ .replace Knife.asKind now.items := by
  intro api p sel
  obtain ⟨hsel, ⟨found, left, now, hwatched, hfound, hgone⟩, s, now', c', hs, hcaught, hnow,
    hcached, hgone'⟩ := exists_relabelled_knives
  refine ⟨hsel, ⟨found, [], left, now, hwatched, ?_⟩, s, now', c', hs, hcaught, hnow, ?_⟩
  · intro hsame
    rw [Cache.replay_nil] at hsame
    rw [hsame, hgone] at hfound
    cases hfound
  · intro hsame
    rw [hsame, hgone'] at hcached
    cases hcached

/-- Some key is left over in each case. -/
theorem relabelled_knives_are_left_over :
    let api : FakeApi := ⟨⟨"test.kubegen.dev", "v1", "Knife", "knives"⟩⟩
    let p : ListParams := { ListParams.none with labelSelector := some "app=web" }
    let sel : Selector := ⟨[.equal "app" "web"]⟩
    Knife.asKind.Faithful ∧ Selector.parseOptional p.labelSelector = .ok sel ∧
    (∃ found left now, FakeApi.Watched Knife.asKind api "x" p sel found [] left now ∧
      (Cache.replace Knife.asKind found.items).Exceeds (.replace Knife.asKind now.items) left ∧
      ∃ k, left k) ∧
    ∃ left s now c', Scene.Leaves Knife.asKind api "x" { Config.standard with params := p } sel
        left s ∧
      s.isCaughtUp = true ∧ ((api.calls Knife.asKind).list "x" p).run s.cluster = (.ok now, c') ∧
      s.cache.Exceeds (.replace Knife.asKind now.items) left ∧ ∃ k, left k := by
  intro api p sel
  obtain ⟨hsel, ⟨found, left, now, hwatched, hfound, hgone⟩, s, now', c', hs, hcaught, hnow',
    hcached, hgone'⟩ := exists_relabelled_knives
  obtain ⟨hwatches, hinformers⟩ :=
    @selected_watch_exceeds_list Knife Knife.asKind api "x" p sel Knife.faithful hsel
  refine ⟨Knife.faithful, hsel, ⟨found, left, now, hwatched, ?_⟩, ?_⟩
  · obtain ⟨c₀, l₀, c₁, c₂, l, c, c', hreached, hwatch, hlist, hdelivers, hdrained, hnow⟩ :=
      hwatched
    obtain ⟨l₁, c₃, found', c₄, hwatch', hlist', hall⟩ := hwatches c₀ hreached
    rw [hwatch] at hwatch'
    cases hwatch'
    rw [hlist] at hlist'
    cases hlist'
    obtain ⟨now₁, c₅, hnow₁, hexceeds, hiff⟩ := (hall [] left l c hdelivers).2 hdrained
    rw [hnow] at hnow₁
    cases hnow₁
    refine ⟨hexceeds, ?_⟩
    by_contra hno
    have hsame := hiff.mpr fun k hk => hno ⟨k, hk⟩
    rw [Cache.replay_nil] at hsame
    rw [hsame, hgone] at hfound
    cases hfound
  · obtain ⟨left', hleaves⟩ := (Scene.reachable_iff_exists_leaves _ _ _ _ sel s).mp hs
    obtain ⟨now₁, c₅, hnow₁, hexceeds, hiff⟩ := hinformers _ rfl left' s hleaves hcaught
    rw [hnow'] at hnow₁
    cases hnow₁
    refine ⟨left', s, now', c', hleaves, hcaught, hnow', hexceeds, ?_⟩
    by_contra hno
    have hsame := hiff.mpr fun k hk => hno ⟨k, hk⟩
    rw [hsame, hgone'] at hcached
    cases hcached

end ClusterKit
