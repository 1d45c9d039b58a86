/-
# Isolation of namespaces

Whatever a tenant of a namespace asks for and however it follows its watches, it
changes nothing outside of the namespace, and it learns nothing from there: on
two clusters that are alike in the namespace, whatever else they hold, it gets
the same answers and is told the same events.

Key definitions: `Tenant.Sound`, `Tenant.Alike`, `Tenant.StepsAlike`, `Tenant.Attends`.
Key theorems: `Tenant.act_alike`, `Tenant.namespaces_are_isolated`.
-/
import ClusterKit.Proofs.Fake.Tenant
import ClusterKit.Proofs.Tracker.Alike
import ClusterKit.Proofs.Tracker.Subscription
import ClusterKit.Proofs.Watch.Following

namespace ClusterKit

open Tracker

variable {α : Type}

/-! ### Calls within the namespace -/

/-- An object that has been brought into a namespace says that it is there. -/
theorem Kind.ns_of_scoped {K : Kind α} (hK : ∀ m obj, K.metadata (K.withMetadata m obj) = m)
    {ns : String} {obj obj' : α} (h : K.scoped ns obj = .ok obj') :
    (K.metadata obj').ns.getD "" = ns := by
  unfold Kind.scoped at h
  dsimp only at h
  split at h
  · cases h
    rw [hK]
    rfl
  · split at h
    · rename_i hown
      cases h
      exact hown
    · cases h

/-- A call on two clusters has the same outcome and does the same within the namespace. -/
structure Clientset.CallsAlike (r : GroupVersionResource) (ns : String) (c₁ c₂ : Clientset)
    (x₁ x₂ : β × Clientset) : Prop where
  isDefault₁ : x₁.2.IsDefault
  isDefault₂ : x₂.2.IsDefault
  acts : ActsAlike r ns c₁.tracker c₂.tracker (x₁.1, x₁.2.tracker) (x₂.1, x₂.2.tracker)

namespace Tenant

section

variable {K : Kind α} {api : FakeApi} {ns : String} {c₁ c₂ : Clientset}
  (h₁ : c₁.IsDefault) (h₂ : c₂.IsDefault)
  (h : Tracker.Alike api.resource.gvr ns c₁.tracker c₂.tracker) (hns : ns.isEmpty = false)

include h₁ h₂

/-- A call that fails before it gets to the cluster. -/
theorem callsAlike_of_error (e : ClientError) : Clientset.CallsAlike api.resource.gvr ns c₁ c₂
    ((.error e : Except ClientError β), c₁) (.error e, c₂) :=
  ⟨h₁, h₂, .stays _⟩

include h hns

theorem callsAlike_invoke (d : Deed) (f : Reply → Except ClientError β) :
    Clientset.CallsAlike api.resource.gvr ns c₁ c₂
      ((c₁.invoke (api.action ns d)).1.bind f, (c₁.invoke (api.action ns d)).2)
      ((c₂.invoke (api.action ns d)).1.bind f, (c₂.invoke (api.action ns d)).2) := by
  refine ⟨h₁.invoke _, h₂.invoke _, ?_⟩
  rw [Clientset.invoke_eq h₁, Clientset.invoke_eq h₂]
  exact (h.react hns (a := api.action ns d) rfl rfl).map
    fun x => (x.getD (.error (Clientset.unhandled (api.action ns d)))).bind f

theorem callsAlike_write (hK : ∀ m obj, K.metadata (K.withMetadata m obj) = m) (verb : String)
    (deed : Erased → Deed) (obj : α) :
    Clientset.CallsAlike api.resource.gvr ns c₁ c₂
      ((do let obj ← K.scoped ns obj; api.write K verb obj deed :
        ExceptT ClientError (StateM Clientset) α).run c₁)
      ((do let obj ← K.scoped ns obj; api.write K verb obj deed :
        ExceptT ClientError (StateM Clientset) α).run c₂) := by
  cases hs : K.scoped ns obj with
  | error e => exact callsAlike_of_error h₁ h₂ e
  | ok placed =>
    show Clientset.CallsAlike api.resource.gvr ns c₁ c₂
      ((api.write K verb placed deed).run c₁) ((api.write K verb placed deed).run c₂)
    rw [FakeApi.run_write, FakeApi.run_write]
    cases K.erase api.resource placed with
    | error e => exact callsAlike_of_error h₁ h₂ _
    | ok o =>
      rw [Kind.ns_of_scoped hK hs]
      exact callsAlike_invoke h₁ h₂ h hns (deed o) _

end

end Tenant

/-! ### Tenants alike -/

/-- What can be told of a watch: its watcher, and what is queued for it. -/
def LiveWatcher.view (t : Tracker) (l : LiveWatcher α) :
    Watcher α × Option (Selector × List (WatchEvent Erased)) :=
  (l.watcher, l.feed.map fun f => (f.selector, t.queued f.subscription))

/-- The watch is fed by an open subscription to a namespace, if it is fed. -/
def LiveWatcher.IsFed (r : GroupVersionResource) (ns : String) (t : Tracker)
    (l : LiveWatcher α) : Prop :=
  ∀ f, l.feed = some f → ∃ q, t.IsSubscribed f.subscription r ns q

namespace Tenant

/-- The feed of the watch of a number. -/
def feed? (v : Tenant α) (n : Nat) : Option Feed :=
  v.watches[n]?.bind (·.feed)

/-- The cluster answers from its tracker, and each watch has a subscription of its own to
the namespace. -/
structure Sound (r : GroupVersionResource) (ns : String) (v : Tenant α) : Prop where
  isDefault : v.cluster.IsDefault
  isFed : ∀ l ∈ v.watches, l.IsFed r ns v.cluster.tracker
  apart : ∀ m n f g, v.feed? m = some f → v.feed? n = some g →
    f.subscription = g.subscription → m = n

/-- The clusters are alike in the namespace, and so are the watches. -/
structure Alike (r : GroupVersionResource) (ns : String) (v₁ v₂ : Tenant α) : Prop where
  tracker : Tracker.Alike r ns v₁.cluster.tracker v₂.cluster.tracker
  watches : v₁.watches.map (·.view v₁.cluster.tracker) =
    v₂.watches.map (·.view v₂.cluster.tracker)

section

variable {r : GroupVersionResource} {ns : String} {v v₁ v₂ : Tenant α}

theorem Alike.refl (v : Tenant α) : Alike r ns v v :=
  ⟨.refl _, rfl⟩

/-! ### Calls of a tenant -/

/-- All watches hear of the mutation the same. -/
theorem map_view_commit (h : Sound r ns v) (m : Mutation) :
    v.watches.map (·.view (v.cluster.tracker.commit m)) =
      (v.watches.map (·.view v.cluster.tracker)).map fun x =>
        (x.1, x.2.map fun y => (y.1, y.2 ++ heard r ns m)) := by
  rw [List.map_map]
  apply List.map_congr_left
  intro l hl
  unfold LiveWatcher.view
  cases hf : l.feed with
  | none => simp [hf]
  | some f =>
    obtain ⟨q, hq⟩ := h.isFed l hl f hf
    simp [hf, hq.queued, (hq.commit m).queued]

/-- A call leaves the watches as they are, and at most tells them something. -/
theorem sound_of_acts (h : Sound r ns v) {c : Clientset} (hc : c.IsDefault)
    (ht : c.tracker = v.cluster.tracker ∨ ∃ m, c.tracker = v.cluster.tracker.commit m) :
    Sound r ns { v with cluster := c } := by
  refine ⟨hc, ?_, h.apart⟩
  intro l hl f hf
  obtain ⟨q, hq⟩ := h.isFed l hl f hf
  rcases ht with ht | ⟨m, ht⟩
  · exact ⟨q, ht ▸ hq⟩
  · exact ⟨_, ht ▸ hq.commit m⟩

/-- An act of a tenant keeps its watches in order, and the objects elsewhere as they are. -/
structure Keeps (r : GroupVersionResource) (ns : String) (v v' : Tenant α) : Prop where
  sound : Sound r ns v'
  elsewhere : ∀ r' k, ¬ (r' = r ∧ k.ns = ns) →
    v'.cluster.tracker.find? r' k = v.cluster.tracker.find? r' k

/-- What two tenants do comes to the same: they see the same, and are alike behind it. -/
structure StepsAlike (r : GroupVersionResource) (ns : String) (v₁ v₂ : Tenant α)
    (x₁ x₂ : β × Tenant α) : Prop where
  answer : x₁.1 = x₂.1
  keeps₁ : Keeps r ns v₁ x₁.2
  keeps₂ : Keeps r ns v₂ x₂.2
  alike : Alike r ns x₁.2 x₂.2

theorem Sound.keeps_of_call (h : Sound r ns v) {c : Clientset} (hc : c.IsDefault)
    (ht : c.tracker = v.cluster.tracker ∨
      ∃ m : Mutation, m.IsWithin r ns ∧ c.tracker = v.cluster.tracker.commit m) :
    Keeps r ns v { v with cluster := c } := by
  refine ⟨sound_of_acts h hc (ht.imp_right fun ⟨m, _, hm⟩ => ⟨m, hm⟩), ?_⟩
  intro r' k hk
  rcases ht with ht | ⟨m, hm, ht⟩
  · exact congrArg (·.find? r' k) ht
  · show c.tracker.find? r' k = _
    rw [ht, find?_commit, if_neg]
    rintro ⟨rfl, rfl⟩
    exact hk ⟨hm.resource, hm.ns⟩

section

variable (h₁ : Sound r ns v₁) (h₂ : Sound r ns v₂) (h : Alike r ns v₁ v₂)

include h₁ h₂ h

theorem ask_alike {call : ExceptT ClientError (StateM Clientset) β}
    (f : Except ClientError β → FakeApi.Answer α (Watcher α))
    (hc : Clientset.CallsAlike r ns v₁.cluster v₂.cluster (call.run v₁.cluster)
      (call.run v₂.cluster)) :
    StepsAlike r ns v₁ v₂ (v₁.ask call f) (v₂.ask call f) := by
  obtain ⟨hd₁, hd₂, hacts⟩ := hc
  obtain ⟨hanswer, heffect⟩ := hacts.cases_eq
  refine ⟨congrArg (Answer.called <| f ·) hanswer, ?_, ?_, ?_⟩
  · exact h₁.keeps_of_call hd₁ (heffect.imp (·.1) fun ⟨m, hm, ht, _⟩ => ⟨m, hm, ht⟩)
  · exact h₂.keeps_of_call hd₂ (heffect.imp (·.2) fun ⟨m, hm, _, ht⟩ => ⟨m, hm, ht⟩)
  · dsimp only [ask]
    rcases heffect with ⟨ht₁, ht₂⟩ | ⟨m, -, ht₁, ht₂⟩
    · refine ⟨?_, ?_⟩ <;> dsimp only at ht₁ ht₂ ⊢ <;> rw [ht₁, ht₂]
      · exact h.tracker
      · exact h.watches
    · refine ⟨?_, ?_⟩ <;> dsimp only at ht₁ ht₂ ⊢ <;> rw [ht₁, ht₂]
      · exact h.tracker.commit m
      · rw [map_view_commit h₁, map_view_commit h₂, h.watches]

end

/-! ### Opening a watch -/

theorem feed?_append (v : Tenant α) (c : Clientset) (l : LiveWatcher α) (n : Nat) :
    feed? ⟨c, v.watches ++ [l]⟩ n =
      if n = v.watches.length then l.feed else v.feed? n := by
  unfold feed?
  dsimp only
  rcases Nat.lt_trichotomy n v.watches.length with hn | hn | hn
  · rw [List.getElem?_append_left hn, if_neg (Nat.ne_of_lt hn)]
  · subst hn
    simp
  · have hnone : v.watches[n]? = none := List.getElem?_eq_none (Nat.le_of_lt hn)
    rw [if_neg (Nat.ne_of_gt hn), hnone, List.getElem?_eq_none (by simp; omega)]

/-- A watch that has just been opened is fed by a subscription of its own. -/
theorem Sound.watch (h : Sound r ns v) {c : Clientset} (hc : c.IsDefault)
    (ht : c.tracker = (v.cluster.tracker.watch r ns).2) {l : LiveWatcher α} {sel : Selector}
    (hl : l.feed = some ⟨(v.cluster.tracker.watch r ns).1, sel⟩) :
    Keeps r ns v ⟨c, v.watches ++ [l]⟩ := by
  have hfresh : ∀ n f, v.feed? n = some f →
      f.subscription < (v.cluster.tracker.watch r ns).1 := by
    intro n f hf
    obtain ⟨l', hl', hf'⟩ := Option.bind_eq_some_iff.mp hf
    obtain ⟨q, hq⟩ := h.isFed l' (List.mem_of_getElem? hl') f hf'
    exact hq.known
  refine ⟨⟨hc, ?_, ?_⟩, ?_⟩
  · intro l' hl' f hf
    show ∃ q, c.tracker.IsSubscribed f.subscription r ns q
    rw [ht]
    rcases List.mem_append.mp hl' with hold | hnew
    · obtain ⟨q, hq⟩ := h.isFed l' hold f hf
      exact ⟨q, hq.watch r ns⟩
    · obtain rfl := List.mem_singleton.mp hnew
      rw [hl, Option.some.injEq] at hf
      subst hf
      exact ⟨[], isSubscribed_watch _ r ns⟩
  · intro m n f g hf hg hfg
    rw [feed?_append] at hf hg
    split at hf <;> split at hg
    · rename_i hm hn
      exact hm.trans hn.symm
    · rw [hl, Option.some.injEq] at hf
      subst hf
      exact absurd hfg (Nat.ne_of_gt (hfresh n g hg))
    · rw [hl, Option.some.injEq] at hg
      subst hg
      exact absurd hfg (Nat.ne_of_lt (hfresh m f hf))
    · exact h.apart m n f g hf hg hfg
  · intro r' k _
    show c.tracker.find? r' k = _
    rw [ht]
    rfl

theorem map_view_watch (h : Sound r ns v) :
    v.watches.map (·.view (v.cluster.tracker.watch r ns).2) =
      v.watches.map (·.view v.cluster.tracker) := by
  apply List.map_congr_left
  intro l hl
  unfold LiveWatcher.view
  cases hf : l.feed with
  | none => rfl
  | some f =>
    obtain ⟨q, hq⟩ := h.isFed l hl f hf
    simp [hq.queued, (hq.watch r ns).queued]

/-! ### Seeing to a watch -/

/-- What is done with a watch changes its own subscription at most, shows the same of what
looks the same, and leaves the watch fed or lets its feed go. -/
structure Attends (r : GroupVersionResource) (ns : String)
    (f : LiveWatcher α → Tracker → Answer α × LiveWatcher α × Tracker) : Prop where
  differs : ∀ l t, DiffersAt (l.feed.map (·.subscription)) t (f l t).2.2
  feed : ∀ l t g, (f l t).2.1.feed = some g → l.feed = some g
  isFed : ∀ l t, l.IsFed r ns t → (f l t).2.1.IsFed r ns (f l t).2.2
  alike : ∀ l₁ t₁ l₂ t₂, LiveWatcher.view t₁ l₁ = LiveWatcher.view t₂ l₂ →
    (f l₁ t₁).1 = (f l₂ t₂).1 ∧ (f l₁ t₁).2.1.view (f l₁ t₁).2.2 = (f l₂ t₂).2.1.view (f l₂ t₂).2.2

theorem feed?_set (v : Tenant α) (c : Clientset) (l : LiveWatcher α) (m n : Nat) :
    feed? ⟨c, v.watches.set m l⟩ n =
      if n = m ∧ m < v.watches.length then l.feed else v.feed? n := by
  unfold feed?
  dsimp only
  rw [List.getElem?_set]
  by_cases hmn : m = n
  · subst hmn
    by_cases hm : m < v.watches.length
    · simp [hm]
    · simp [hm]
  · simp [hmn, Ne.symm hmn]

section

variable {f : LiveWatcher α → Tracker → Answer α × LiveWatcher α × Tracker} {n : Nat}
  {l : LiveWatcher α}

/-- Nothing happens to the other watches. -/
theorem Sound.others (h : Sound r ns v) (hl : v.watches[n]? = some l) {t : Tracker}
    (ht : DiffersAt (l.feed.map (·.subscription)) v.cluster.tracker t) {m : Nat}
    {l' : LiveWatcher α} (hl' : v.watches[m]? = some l') (hm : m ≠ n) :
    (l'.IsFed r ns t) ∧ l'.view t = l'.view v.cluster.tracker := by
  have hother : ∀ f, l'.feed = some f →
      l.feed.map (·.subscription) ≠ some f.subscription := by
    intro f hf hg
    obtain ⟨g, hg, hsub⟩ := Option.map_eq_some_iff.mp hg
    refine hm (h.apart m n f g ?_ ?_ hsub.symm)
    · exact Option.bind_eq_some_iff.mpr ⟨l', hl', hf⟩
    · exact Option.bind_eq_some_iff.mpr ⟨l, hl, hg⟩
  constructor
  · intro f hf
    obtain ⟨q, hq⟩ := h.isFed l' (List.mem_of_getElem? hl') f hf
    exact ⟨q, hq.of_differsAt ht (hother f hf)⟩
  · unfold LiveWatcher.view
    cases hf : l'.feed with
    | none => rfl
    | some f => simp [queued, ht.receiver _ (hother f hf)]

theorem Sound.attend (h : Sound r ns v) (hf : Attends r ns f) :
    Keeps r ns v (v.attend n f).2 := by
  unfold Tenant.attend
  cases hl : v.watches[n]? with
  | none => exact ⟨h, fun _ _ _ => rfl⟩
  | some l =>
    dsimp only
    have hdiff := hf.differs l v.cluster.tracker
    have hn : n < v.watches.length := (List.getElem?_eq_some_iff.mp hl).1
    have hfeed : ∀ m g, feed? ⟨{ v.cluster with tracker := (f l v.cluster.tracker).2.2 },
        v.watches.set n (f l v.cluster.tracker).2.1⟩ m = some g → v.feed? m = some g := by
      intro m g hg
      rw [feed?_set] at hg
      split at hg
      · rename_i hm
        rw [hm.1]
        exact Option.bind_eq_some_iff.mpr ⟨l, hl, hf.feed l _ g hg⟩
      · exact hg
    refine ⟨⟨⟨h.isDefault.objects, h.isDefault.watches⟩, ?_, ?_⟩, ?_⟩
    · intro l' hl'
      obtain ⟨m, hm⟩ := List.mem_iff_getElem?.mp hl'
      dsimp only at hm
      rw [List.getElem?_set] at hm
      split at hm
      · exact Option.some.inj hm ▸ hf.isFed l _ (h.isFed l (List.mem_of_getElem? hl))
      · rename_i hne
        exact (h.others hl hdiff hm (Ne.symm hne)).1
    · intro m k g g' hg hg' hsub
      exact h.apart m k g g' (hfeed m g hg) (hfeed k g' hg') hsub
    · intro r' k _
      exact find?_congr hdiff.objects r' k

theorem map_view_set (h : Sound r ns v) (hl : v.watches[n]? = some l) {t : Tracker}
    (ht : DiffersAt (l.feed.map (·.subscription)) v.cluster.tracker t) (l' : LiveWatcher α) :
    (v.watches.set n l').map (·.view t) =
      (v.watches.map (·.view v.cluster.tracker)).set n (l'.view t) := by
  rw [List.map_set]
  apply List.ext_getElem?
  intro m
  by_cases hm : n = m
  · subst hm
    simp [List.getElem?_set_self']
  · rw [List.getElem?_set_ne hm, List.getElem?_set_ne hm, List.getElem?_map, List.getElem?_map]
    cases hl' : v.watches[m]? with
    | none => rfl
    | some other => exact congrArg some (h.others hl ht hl' (Ne.symm hm)).2

theorem attend_alike (h₁ : Sound r ns v₁) (h₂ : Sound r ns v₂) (h : Alike r ns v₁ v₂)
    (hf : Attends r ns f) : StepsAlike r ns v₁ v₂ (v₁.attend n f) (v₂.attend n f) := by
  have hviews : v₁.watches[n]?.map (·.view v₁.cluster.tracker) =
      v₂.watches[n]?.map (·.view v₂.cluster.tracker) := by
    rw [← List.getElem?_map, ← List.getElem?_map, h.watches]
  suffices hgoal : (v₁.attend n f).1 = (v₂.attend n f).1 ∧
      Alike r ns (v₁.attend n f).2 (v₂.attend n f).2 from
    ⟨hgoal.1, h₁.attend hf, h₂.attend hf, hgoal.2⟩
  unfold Tenant.attend
  cases hl₁ : v₁.watches[n]? with
  | none =>
    cases hl₂ : v₂.watches[n]? with
    | none => exact ⟨rfl, h⟩
    | some l₂ => simp [hl₁, hl₂] at hviews
  | some l₁ =>
    cases hl₂ : v₂.watches[n]? with
    | none => simp [hl₁, hl₂] at hviews
    | some l₂ =>
      rw [hl₁, hl₂, Option.map_some, Option.map_some, Option.some.injEq] at hviews
      obtain ⟨hanswer, hview⟩ := hf.alike l₁ _ l₂ _ hviews
      have hdiff₁ := hf.differs l₁ v₁.cluster.tracker
      have hdiff₂ := hf.differs l₂ v₂.cluster.tracker
      refine ⟨hanswer, ⟨?_, ?_⟩, ?_⟩
      · exact hdiff₁.version.trans (h.tracker.version.trans hdiff₂.version.symm)
      · intro name
        exact (find?_congr hdiff₁.objects _ _).trans
          ((h.tracker.find? name).trans (find?_congr hdiff₂.objects _ _).symm)
      · dsimp only
        rw [map_view_set h₁ hl₁ hdiff₁, map_view_set h₂ hl₂ hdiff₂, h.watches, hview]

end

theorem attends_receive (K : Kind α) : Attends r ns fun l t =>
    let x := l.receive K t
    ((.told x.1 : Answer α), x.2) := by
  refine ⟨?_, ?_, ?_, ?_⟩
  · intro l t
    unfold LiveWatcher.receive
    cases l.feed with
    | none => exact .refl _ t
    | some f => exact differsAt_drain t _
  · intro l t g hg
    unfold LiveWatcher.receive at hg
    cases hf : l.feed with
    | none => simp [hf] at hg
    | some f => simpa [hf] using hg
  · intro l t hl g hg
    unfold LiveWatcher.receive at hg ⊢
    cases hf : l.feed with
    | none => simp [hf] at hg
    | some f =>
      simp only [hf, Option.some.injEq] at hg
      obtain ⟨q, hq⟩ := hl g (hf.trans (congrArg some hg))
      exact ⟨[], hg ▸ hq.drain.2⟩
  · intro l₁ t₁ l₂ t₂ h
    obtain ⟨w₁, feed₁⟩ := l₁
    obtain ⟨w₂, feed₂⟩ := l₂
    obtain ⟨rfl, hq⟩ := Prod.mk.inj h
    cases feed₁ with
    | none =>
      cases feed₂ with
      | none => exact ⟨rfl, rfl⟩
      | some f₂ => cases hq
    | some f₁ =>
      cases feed₂ with
      | none => cases hq
      | some f₂ =>
        simp only [Option.map_some, Option.some.injEq, Prod.mk.injEq] at hq
        have hpasses : f₁.passes = f₂.passes := by
          funext e
          unfold Feed.passes
          rw [hq.1]
        simp [LiveWatcher.receive, LiveWatcher.view, drain_eq_queued, queued_drain, hq, hpasses]

theorem attends_move (K : Kind α) (a : Watcher.Act) : Attends r ns fun l t =>
    ((.moved ((l.watcher.act? K a).map (·.2)) : Answer α),
      { l with watcher := l.watcher.act K a }, t) := by
  refine ⟨fun _ t => .refl _ t, fun _ _ _ hg => hg, fun _ _ hl => hl, ?_⟩
  intro l₁ t₁ l₂ t₂ h
  obtain ⟨hw, hq⟩ := Prod.mk.inj h
  simp [LiveWatcher.view, hw, hq]

theorem attends_letGo : Attends r ns fun l t => ((.nothing : Answer α), l.letGo t) := by
  refine ⟨?_, ?_, ?_, ?_⟩
  · intro l t
    unfold LiveWatcher.letGo
    cases l.feed with
    | none => exact .refl _ t
    | some f =>
      dsimp only
      split
      · exact .refl _ t
      · exact differsAt_unsubscribe t _
  · intro l t g hg
    unfold LiveWatcher.letGo at hg
    split at hg
    · exact hg
    · split at hg
      · exact hg
      · cases hg
  · intro l t hl
    obtain ⟨w, feed⟩ := l
    cases feed with
    | none => exact hl
    | some f =>
      unfold LiveWatcher.letGo
      dsimp only
      split
      · exact hl
      · exact fun g hg => nomatch hg
  · intro l₁ t₁ l₂ t₂ h
    obtain ⟨w₁, feed₁⟩ := l₁
    obtain ⟨w₂, feed₂⟩ := l₂
    obtain ⟨rfl, hq⟩ := Prod.mk.inj h
    refine ⟨rfl, ?_⟩
    cases feed₁ with
    | none =>
      cases feed₂ with
      | none => rfl
      | some f₂ => cases hq
    | some f₁ =>
      cases feed₂ with
      | none => cases hq
      | some f₂ =>
        unfold LiveWatcher.letGo
        dsimp only
        split
        · exact h
        · rfl

end

/-! ### Acts of a tenant -/

section

variable {K : Kind α} {api : FakeApi} {ns : String} {v v₁ v₂ : Tenant α}

/-- A watch is opened on the tracker, unless its selector cannot be read. -/
theorem run_watch {c : Clientset} (h : c.IsDefault) (p : ListParams) :
    ((calls K api ns).watch p).run c = match selector api.resource.gvr p with
      | .error e => (.error e, { c with journal := c.journal ++ [api.action ns (.watch p)] })
      | .ok sel => (.ok (.ofSource api.resource
          (.tracker ⟨(c.tracker.watch api.resource.gvr ns).1, sel⟩)),
        { c with
          tracker := (c.tracker.watch api.resource.gvr ns).2
          journal := c.journal ++ [api.action ns (.watch p)] }) := by
  refine (FakeApi.run_watch K api ns p c).trans ?_
  rw [Clientset.invokeWatch_eq h (a := api.action ns (.watch p)) rfl]
  unfold Tracker.reactWatch
  dsimp only [FakeApi.action]
  cases selector api.resource.gvr p <;> rfl

theorem watch_alike (h₁ : Sound api.resource.gvr ns v₁) (h₂ : Sound api.resource.gvr ns v₂)
    (h : Alike api.resource.gvr ns v₁ v₂) (p : ListParams) :
    StepsAlike api.resource.gvr ns v₁ v₂ (v₁.act K api ns (.watch p))
      (v₂.act K api ns (.watch p)) := by
  dsimp only [act]
  rw [run_watch h₁.isDefault, run_watch h₂.isDefault]
  cases selector api.resource.gvr p with
  | error e =>
    dsimp only [Except.toOption, Option.toList_none]
    rw [List.append_nil, List.append_nil]
    exact ⟨rfl, h₁.keeps_of_call ⟨h₁.isDefault.objects, h₁.isDefault.watches⟩ (.inl rfl),
      h₂.keeps_of_call ⟨h₂.isDefault.objects, h₂.isDefault.watches⟩ (.inl rfl),
      h.tracker, h.watches⟩
  | ok sel =>
    dsimp only [Except.toOption, Option.toList_some]
    have hkeeps := fun {v : Tenant α} (hv : Sound api.resource.gvr ns v) =>
      hv.watch (c := { v.cluster with
          tracker := (v.cluster.tracker.watch api.resource.gvr ns).2
          journal := v.cluster.journal ++ [api.action ns (.watch p)] })
        (l := .ofSource api.resource
          (.tracker ⟨(v.cluster.tracker.watch api.resource.gvr ns).1, sel⟩))
        ⟨hv.isDefault.objects, hv.isDefault.watches⟩ rfl rfl
    refine ⟨rfl, hkeeps h₁, hkeeps h₂, ⟨h.tracker.version, h.tracker.find?⟩, ?_⟩
    dsimp only
    rw [List.map_append, List.map_append, map_view_watch h₁, map_view_watch h₂, h.watches]
    simp [LiveWatcher.view, LiveWatcher.ofSource, (isSubscribed_watch _ _ _).queued]

/-- Whatever a tenant does, it sees the same on clusters that are alike in its namespace, and
leaves them so. -/
theorem act_alike (hK : ∀ m obj, K.metadata (K.withMetadata m obj) = m)
    (hns : ns.isEmpty = false) (h₁ : Sound api.resource.gvr ns v₁)
    (h₂ : Sound api.resource.gvr ns v₂) (h : Alike api.resource.gvr ns v₁ v₂) (a : Act α) :
    StepsAlike api.resource.gvr ns v₁ v₂ (v₁.act K api ns a) (v₂.act K api ns a) := by
  have hinvoke : ∀ {β : Type} (d : Deed) (f : Reply → Except ClientError β),
      Clientset.CallsAlike api.resource.gvr ns v₁.cluster v₂.cluster
        ((do let r ← FakeApi.invoke (api.action ns d); f r :
          ExceptT ClientError (StateM Clientset) β).run v₁.cluster)
        ((do let r ← FakeApi.invoke (api.action ns d); f r :
          ExceptT ClientError (StateM Clientset) β).run v₂.cluster) := by
    intro β d f
    rw [FakeApi.run_invoke, FakeApi.run_invoke]
    exact callsAlike_invoke h₁.isDefault h₂.isDefault h.tracker hns d f
  have hwrite := callsAlike_write h₁.isDefault h₂.isDefault h.tracker hns hK
  cases a with
  | get name p => exact ask_alike h₁ h₂ h _ (hinvoke (.get name) (FakeApi.typed K "get"))
  | create obj p => exact ask_alike h₁ h₂ h _ (hwrite "create" (.create · p) obj)
  | update obj p => exact ask_alike h₁ h₂ h _ (hwrite "update" (.update · p) obj)
  | delete name p => exact ask_alike h₁ h₂ h _ (hinvoke (.delete name p) FakeApi.deleted)
  | list p => exact ask_alike h₁ h₂ h _ (hinvoke (.list p) (FakeApi.typedList K))
  | watch p => exact watch_alike h₁ h₂ h p
  | receive n => exact attend_alike h₁ h₂ h (attends_receive K)
  | move n a => exact attend_alike h₁ h₂ h (attends_move K a)
  | letGo n => exact attend_alike h₁ h₂ h attends_letGo

theorem run_alike (hK : ∀ m obj, K.metadata (K.withMetadata m obj) = m)
    (hns : ns.isEmpty = false) (as : List (Act α)) : ∀ {v₁ v₂ : Tenant α},
    Sound api.resource.gvr ns v₁ → Sound api.resource.gvr ns v₂ →
      Alike api.resource.gvr ns v₁ v₂ →
      StepsAlike api.resource.gvr ns v₁ v₂ (v₁.run K api ns as) (v₂.run K api ns as) := by
  induction as with
  | nil => exact fun h₁ h₂ h => ⟨rfl, ⟨h₁, fun _ _ _ => rfl⟩, ⟨h₂, fun _ _ _ => rfl⟩, h⟩
  | cons a as ih =>
    intro v₁ v₂ h₁ h₂ h
    have hfirst := act_alike hK hns h₁ h₂ h a
    have hrest := ih hfirst.keeps₁.sound hfirst.keeps₂.sound hfirst.alike
    refine ⟨?_, ⟨hrest.keeps₁.sound, ?_⟩, ⟨hrest.keeps₂.sound, ?_⟩, hrest.alike⟩
    · exact congrArg₂ List.cons hfirst.answer hrest.answer
    · exact fun r k hk => (hrest.keeps₁.elsewhere r k hk).trans (hfirst.keeps₁.elsewhere r k hk)
    · exact fun r k hk => (hrest.keeps₂.elsewhere r k hk).trans (hfirst.keeps₂.elsewhere r k hk)

theorem sound_start {c : Clientset} (h : c.IsDefault) :
    Sound api.resource.gvr ns (start c : Tenant α) :=
  ⟨h, fun _ hl => (nomatch hl), fun _ _ _ _ hf => (nomatch hf)⟩

theorem alike_start {c₁ c₂ : Clientset}
    (h : Tracker.Alike api.resource.gvr ns c₁.tracker c₂.tracker) :
    Alike api.resource.gvr ns (start c₁ : Tenant α) (start c₂) :=
  ⟨h, rfl⟩

theorem scoped_of_foreign {obj : α} (hown : (K.metadata obj).ns.getD "" ≠ "")
    (hother : (K.metadata obj).ns.getD "" ≠ ns) :
    K.scoped ns obj = .error (.namespaceMismatch ns ((K.metadata obj).ns.getD "")) := by
  unfold Kind.scoped
  simp [String.isEmpty_iff, hown, hother]

end

/-- **A namespace is a world of its own.** Whatever is asked of a fake cluster through an api
that is bound to a namespace, and however its watches are followed, nothing changes outside of
the namespace. On two clusters that count the same version and hold the same objects in the
namespace, whatever else they hold, all answers, the events told and the changes read are the
same, and so is what the namespace holds in the end. An object that names another namespace is
refused before the cluster hears of it. -/
theorem namespaces_are_isolated (K : Kind α)
    (hK : ∀ m obj, K.metadata (K.withMetadata m obj) = m) (api : FakeApi) (ns : String)
    (hns : ns ≠ "") :
    (∀ c : Clientset, c.IsDefault → ∀ as r k, ¬ (r = api.resource.gvr ∧ k.ns = ns) →
      ((start c).run K api ns as).2.cluster.tracker.find? r k = c.tracker.find? r k) ∧
    (∀ c₁ c₂ : Clientset, c₁.IsDefault → c₂.IsDefault →
      Tracker.Alike api.resource.gvr ns c₁.tracker c₂.tracker → ∀ as,
      ((start c₁).run K api ns as).1 = ((start c₂).run K api ns as).1 ∧
      Alike api.resource.gvr ns ((start c₁).run K api ns as).2 ((start c₂).run K api ns as).2) ∧
    (∀ (c : Clientset) (obj : α) (p : PostParams), let own := (K.metadata obj).ns.getD ""
      own ≠ "" → own ≠ ns →
      ((calls K api ns).create obj p).run c = (.error (.namespaceMismatch ns own), c) ∧
      ((calls K api ns).update obj p).run c = (.error (.namespaceMismatch ns own), c)) := by
  have hns' : ns.isEmpty = false := by simpa [String.isEmpty_iff] using hns
  refine ⟨?_, ?_, ?_⟩
  · intro c hc as r k hk
    have hrun : StepsAlike api.resource.gvr ns (start c) (start c)
        ((start c).run K api ns as) ((start c).run K api ns as) :=
      run_alike hK hns' as (sound_start hc) (sound_start hc) (.refl _)
    exact hrun.keeps₁.elsewhere r k hk
  · intro c₁ c₂ h₁ h₂ h as
    have hrun := run_alike hK hns' as (sound_start h₁) (sound_start h₂) (alike_start h)
    exact ⟨hrun.answer, hrun.alike⟩
  · intro c obj p own hown hother
    have hscoped : K.scoped ns obj = .error (.namespaceMismatch ns own) :=
      scoped_of_foreign hown hother
    constructor
    · show ExceptT.run (do let obj ← K.scoped ns obj; (api.calls K).create obj p :
        ExceptT ClientError (StateM Clientset) α) c = _
      rw [hscoped]
      rfl
    · show ExceptT.run (do let obj ← K.scoped ns obj; (api.calls K).update obj p :
        ExceptT ClientError (StateM Clientset) α) c = _
      rw [hscoped]
      rfl

/-- Knives in one namespace, with a knife in another or without: a watch and a create in
between give the same, and the other knife stays. -/
theorem knives_are_isolated :
    let api : FakeApi := ⟨⟨"test.kubegen.dev", "v1", "Knife", "knives"⟩⟩
    let c : Clientset := .ofScheme .empty
    let other : ObjectKey := ⟨"b", "x"⟩
    let c' : Clientset :=
      { c with tracker := c.tracker.put api.resource.gvr other ⟨none, .named "x", .null⟩ }
    let as : List (Act Knife) := [.watch .none, .create ⟨.named "k", []⟩ .none, .receive 0]
    (∀ m k, Knife.asKind.metadata (Knife.asKind.withMetadata m k) = m) ∧ "a" ≠ "" ∧
    c.IsDefault ∧ c'.IsDefault ∧ Tracker.Alike api.resource.gvr "a" c.tracker c'.tracker ∧
    c.tracker.find? api.resource.gvr other ≠ c'.tracker.find? api.resource.gvr other ∧
    ((start c).run Knife.asKind api "a" as).1 = ((start c').run Knife.asKind api "a" as).1 ∧
    ((start c').run Knife.asKind api "a" as).2.cluster.tracker.find? api.resource.gvr other =
      c'.tracker.find? api.resource.gvr other := by
  intro api c other c' as
  have hK : ∀ m k, Knife.asKind.metadata (Knife.asKind.withMetadata m k) = m := fun _ _ => rfl
  have hc : c.IsDefault := Clientset.isDefault_ofScheme _
  have hc' : c'.IsDefault := ⟨rfl, rfl⟩
  have hfind : ∀ k, c'.tracker.find? api.resource.gvr k =
      if k = other then some ⟨none, .named "x", .null⟩ else none := by
    intro k
    show (c.tracker.put api.resource.gvr other _).find? _ k = _
    rw [find?_put]
    simp [show c.tracker.find? api.resource.gvr k = none from rfl]
  have halike : Tracker.Alike api.resource.gvr "a" c.tracker c'.tracker := by
    refine ⟨rfl, fun name => ?_⟩
    rw [hfind, if_neg (by simp [other])]
    rfl
  obtain ⟨helsewhere, hsame, -⟩ :=
    namespaces_are_isolated Knife.asKind hK api "a" (by decide)
  refine ⟨hK, by decide, hc, hc', halike, ?_, (hsame c c' hc hc' halike as).1,
    helsewhere c' hc' as _ other (by simp [other])⟩
  rw [hfind, if_pos rfl]
  nofun

end Tenant
end ClusterKit
