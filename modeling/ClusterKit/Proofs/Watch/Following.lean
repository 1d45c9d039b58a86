/-
# Following a selected list

A watch is opened before the list is made, so the changes on their way are, at
any time, some that the list has already and then all that it has not. Applied
again, the former lead back to where they led before. So whatever cache a watch
was followed from, the changes on their way lead from there to what a list has
now (`Follows`), but for what the watch does not tell.

Key definitions: `LiveWatcher.Turn`, `LiveWatcher.onItsWay`, `Follows`.
Key theorems: `FakeApi.list_eq`, `Follows.disturbed`, `Follows.turn`, `Follows.read`.
-/
import ClusterKit.Proofs.Fake.Selected
import ClusterKit.Proofs.Watch.Pending

namespace ClusterKit

open Tracker

variable {α : Type}

/-! ### Opening and listing -/

namespace FakeApi

variable (K : Kind α) (api : FakeApi) (ns : String) {p : ListParams} {sel : Selector}
  {c : Clientset}

/-- A watch is fed by a new subscription, of which it gets what is selected. -/
theorem watch_eq (h : c.Tame K api) (hp : Selector.parseOptional p.labelSelector = .ok sel) :
    ∃ c', ((api.calls K).watch ns p).run c = (.ok (.ofSource api.resource
        (.tracker ⟨(c.tracker.watch api.resource.gvr ns).1, sel⟩)), c') ∧
      c'.Tame K api ∧ c'.tracker = (c.tracker.watch api.resource.gvr ns).2 := by
  have hreact : c.tracker.reactWatch (api.action ns (.watch p)) =
      (some (.ok (.tracker ⟨(c.tracker.watch api.resource.gvr ns).1, sel⟩)),
        (c.tracker.watch api.resource.gvr ns).2) := by
    unfold Tracker.reactWatch
    dsimp only [action]
    rw [selector_eq _ hp]
  have hinvoke := Clientset.invokeWatch_eq h.isDefault (a := api.action ns (.watch p)) rfl
  rw [hreact] at hinvoke
  refine ⟨_, ?_, ⟨h.isDefault.invokeWatch (a := api.action ns (.watch p)) rfl, ?_⟩, ?_⟩
  · rw [run_watch, hinvoke]
    rfl
  · rw [hinvoke]
    exact h.tracker.of_objects rfl
  · rw [hinvoke]

/-- A list has what the tracker has of what is selected, and it does not fail. -/
theorem list_eq (hK : K.Faithful) (h : c.Tame K api)
    (hp : Selector.parseOptional p.labelSelector = .ok sel) :
    ∃ found c', ((api.calls K).list ns p).run c = (.ok found, c') ∧ c'.Tame K api ∧
      c'.tracker = c.tracker ∧ Cache.replace K found.items =
        c.tracker.cacheOf K (K.selected? sel) api.resource.gvr ns := by
  have hrestored : ∀ o ∈ (c.tracker.list api.resource.gvr ns).items, ∃ a, K.restore o = .ok a := by
    intro o ho
    obtain ⟨k, hk, -⟩ := (mem_list_items _ _).mp ho
    obtain ⟨a, ha, -⟩ := h.tracker.restore hK hk
    exact ⟨a, ha⟩
  exact ⟨_, _, run_list K api ns h.isDefault hp hrestored,
    ⟨⟨h.isDefault.objects, h.isDefault.watches⟩, h.tracker⟩, rfl, rfl⟩

end FakeApi

/-! ### Subscriptions among others -/

namespace Tracker.IsSubscribed

variable {id : Nat} {r : GroupVersionResource} {ns : String} {q : List (WatchEvent Erased)}

/-- A call that is not on the receiver of a subscription at most adds to its queue. -/
theorem after_of_others {e : Entry} (h : e.before.IsSubscribed id r ns q) (hp : e.before.Placed)
    (hown : e.call.subscription? ≠ some id) :
    e.after.IsSubscribed id r ns (q ++ ((e.change? r ns).map Change.event).toList) := by
  have hends : e.call.ends id = false := by
    cases hc : e.call <;> simp [hc, Call.subscription?, Call.ends] at hown ⊢ <;> exact hown
  have htakes : e.takes id = [] := by
    unfold Entry.takes
    split
    · rename_i j es hc ha
      rw [hc] at hown
      exact if_neg fun hj => hown (congrArg some hj)
    · rfl
  obtain ⟨q', hs', hq'⟩ := Entry.isSubscribed_after h hp hends
  rw [htakes, List.nil_append] at hq'
  exact hq' ▸ hs'

end Tracker.IsSubscribed

/-! ### Turns of a watch -/

namespace LiveWatcher

/-- What a watch does by itself: what is queued for its feed moves on to it, it makes
moves of its own, or it lets go of its feed when its pump has ended. -/
inductive Turn (K : Kind α) (l : LiveWatcher α) (t : Tracker) : LiveWatcher α → Tracker → Prop
  | receive {f : Feed} (hf : l.feed = some f) :
      Turn K l t
        { l with
          watcher := receiveAll K (((t.drain f.subscription).1.filter f.passes).map .ok) l.watcher }
        (t.drain f.subscription).2
  | move {w : Watcher α} (hw : l.watcher.Moves K w) : Turn K l t { l with watcher := w } t
  | letGo {f : Feed} (hf : l.feed = some f) (hp : l.watcher.isPumping = false) :
      Turn K l t { l with feed := none } (t.unsubscribe f.subscription)

theorem Turn.objects {K : Kind α} {l l' : LiveWatcher α} {t t' : Tracker}
    (h : l.Turn K t l' t') : t'.objects = t.objects := by
  cases h with
  | receive hf => exact objects_tend t (.drain _)
  | move hw => rfl
  | letGo hf hp => rfl

/-- Whether the watch goes on, and all that it was told of has been read. -/
def isDrained (l : LiveWatcher α) (t : Tracker) : Bool :=
  l.watcher.isLive && l.watcher.isEmpty &&
    l.feed.all fun f => (t.queued f.subscription).isEmpty

end LiveWatcher

/-! ### Changes on their way to a cache -/

/-- The changes that a watch is going to tell, of the events queued for it. -/
def queuedChanges (K : Kind α) (sel : Selector) (q : List (WatchEvent Erased)) :
    List (Change α) :=
  q.filterMap fun e => e.change?.bind (Change.through (K.selected? sel))

/-- An event that passes tells what has been selected, and one that does not tells nothing. -/
theorem changeOf_passes (K : Kind α) (f : Feed) (e : WatchEvent Erased) :
    (if f.passes e then changeOf K (.ok e) else none) =
      e.change?.bind (Change.through (K.selected? f.selector)) := by
  have hobject : ∀ (o : Erased) (make : α → Change α),
      (if f.selector.selects o.metadata.labelTable then (K.restored? o).map make else none) =
        (K.selected? f.selector o).map make := by
    intro o make
    unfold Kind.selected?
    split <;> rfl
  cases e with
  | added o => exact hobject o .added
  | modified o => exact hobject o .modified
  | deleted o => exact hobject o .deleted
  | bookmark b => rfl
  | error s => rfl

theorem filterMap_changeOf_passes (K : Kind α) (f : Feed) (q : List (WatchEvent Erased)) :
    ((q.filter f.passes).map .ok).filterMap (changeOf K) = queuedChanges K f.selector q := by
  rw [List.filterMap_map, List.filterMap_filter]
  exact List.filterMap_congr fun e _ => changeOf_passes K f e

theorem queuedChanges_event (K : Kind α) (sel : Selector) (r : GroupVersionResource)
    (ns : String) (e : Entry) :
    queuedChanges K sel ((e.change? r ns).map Change.event).toList =
      (e.told? (K.selected? sel) r ns).toList := by
  unfold queuedChanges Entry.told?
  cases e.change? r ns with
  | none => rfl
  | some c =>
    simp only [Option.map_some, Option.toList_some, List.filterMap_cons, List.filterMap_nil,
      Change.change?_event, Option.bind_some]
    cases c.through (K.selected? sel) <;> rfl

/-- The changes that a watch is still going to deliver. -/
def LiveWatcher.onItsWay (K : Kind α) (l : LiveWatcher α) (t : Tracker) : List (Change α) :=
  l.watcher.pending K ++
    match l.feed with
    | some f => queuedChanges K f.selector (t.queued f.subscription)
    | none => []

/-- As long as the watch goes on, it is fed by a subscription to the namespace, and what
is on its way leads from the cache `b` to one that `P` holds of. -/
def Follows (K : Kind α) (sel : Selector) (r : GroupVersionResource) (ns : String) (t : Tracker)
    (l : LiveWatcher α) (P : Cache α → Prop) (b : Cache α) : Prop :=
  l.watcher.isLive = true → ∃ id q, l.feed = some ⟨id, sel⟩ ∧ t.IsSubscribed id r ns q ∧
    P (Cache.replay K (l.watcher.pending K ++ queuedChanges K sel q) b)

theorem LiveWatcher.onItsWay_eq {K : Kind α} {l : LiveWatcher α} {t : Tracker} {id : Nat}
    {sel : Selector} {r : GroupVersionResource} {ns : String} {q : List (WatchEvent Erased)}
    (hf : l.feed = some ⟨id, sel⟩) (hs : t.IsSubscribed id r ns q) :
    l.onItsWay K t = l.watcher.pending K ++ queuedChanges K sel q := by
  unfold onItsWay
  rw [hf]
  dsimp only
  rw [hs.queued]

namespace Follows

variable {K : Kind α} {sel : Selector} {r : GroupVersionResource} {ns : String} {t t' : Tracker}
  {l l' : LiveWatcher α} {P Q : Cache α → Prop} {b : Cache α}

/-- A watch that has just been opened leaves a cache as it is. -/
theorem ofWatch (K : Kind α) (sel : Selector) (a : ApiResource) (r : GroupVersionResource)
    (ns : String) (t : Tracker) (hb : P b) : Follows K sel r ns (t.watch r ns).2
      (.ofSource a (.tracker ⟨(t.watch r ns).1, sel⟩)) P b :=
  fun _ => ⟨_, [], rfl, isSubscribed_watch t r ns, hb⟩

theorem imp (h : Follows K sel r ns t l P b) (hPQ : ∀ s, P s → Q s) :
    Follows K sel r ns t l Q b := by
  intro hl
  obtain ⟨id, q, hf, hs, hb⟩ := h hl
  exact ⟨id, q, hf, hs, hPQ _ hb⟩

/-- What a call of others changes joins the end of what is on its way. -/
theorem after {e : Entry} (h : Follows K sel r ns e.before l P b) (hp : e.before.Placed)
    (hown : ∀ f, l.feed = some f → e.call.subscription? ≠ some f.subscription)
    (hstep : ∀ s, P s → Q (Cache.replay K (e.told? (K.selected? sel) r ns).toList s)) :
    Follows K sel r ns e.after l Q b := by
  intro hl
  obtain ⟨id, q, hf, hs, hb⟩ := h hl
  refine ⟨id, _, hf, hs.after_of_others hp (hown _ hf), ?_⟩
  have hsplit : queuedChanges K sel (q ++ ((e.change? r ns).map Change.event).toList) =
      queuedChanges K sel q ++ (e.told? (K.selected? sel) r ns).toList := by
    rw [← queuedChanges_event]
    exact List.filterMap_append
  rw [hsplit, ← List.append_assoc, Cache.replay_append]
  exact hstep _ hb

/-- What others do leads to the next list, but for what they take out of it. -/
theorem disturbed {api : FakeApi} {c c' : Clientset} {left : ObjectKey → Prop} (hK : K.Faithful)
    (hc : c.Tame K api) (h : Follows K sel api.resource.gvr ns c.tracker l
      (c.tracker.Agrees K sel api.resource.gvr ns left) b)
    (hd : FakeApi.Disturbs K api l.feed c c') :
    Follows K sel api.resource.gvr ns c'.tracker l (c'.tracker.Agrees K sel api.resource.gvr ns
      (leftAfter sel api.resource.gvr ns c.tracker c'.tracker left)) b := by
  have hafter := (hd.tame hc).tracker
  obtain ⟨-, d, ht, -, hown⟩ := hd.exists_call hc.isDefault
  rw [ht] at hafter ⊢
  exact h.after (e := ⟨c.tracker, d⟩) hc.tracker.placed hown fun s hs =>
    hs.after (e := ⟨c.tracker, d⟩) hK hc.tracker hafter

/-- What a watch does by itself does not change where it leads. -/
theorem turn (h : Follows K sel r ns t l P b) (ht : l.Turn K t l' t') :
    Follows K sel r ns t' l' P b := by
  intro hl
  cases ht with
  | receive hf =>
    obtain ⟨hlive, hpending⟩ := LiveWatcher.pending_receiveAll K _ hl
    obtain ⟨id, q, hf', hs, hb⟩ := h hlive
    rw [hf, Option.some.injEq] at hf'
    subst hf'
    refine ⟨id, [], hf, hs.drain.2, ?_⟩
    rw [hpending, hs.drain.1, filterMap_changeOf_passes]
    exact (List.append_nil _).symm ▸ hb
  | move hw =>
    obtain ⟨hlive, hpending⟩ := hw.pending hl
    obtain ⟨id, q, hf, hs, hb⟩ := h hlive
    rw [hpending] at hb
    exact ⟨id, q, hf, hs, hb⟩
  | letGo hf hp =>
    unfold Watcher.isLive at hl
    rw [hp] at hl
    cases hl

/-- What is read has to be applied. -/
theorem read (h : Follows K sel r ns t l P b) {a : Watcher.Act} {w : Watcher α}
    {out : Option (Change α)} (hw : l.watcher.act? K a = some (w, some out)) :
    Follows K sel r ns t { l with watcher := w } P (Cache.replay K out.toList b) := by
  intro hl
  obtain ⟨hlive, hpending⟩ := Watcher.act_pending hw (Watcher.not_send_of_read hw) hl
  obtain ⟨id, q, hf, hs, hb⟩ := h hlive
  refine ⟨id, q, hf, hs, ?_⟩
  rw [hpending, List.append_assoc, Cache.replay_append K _ (_ ++ _)] at hb
  exact hb

/-- When all has been read, all that was to be led to is there. -/
theorem of_isDrained (h : Follows K sel r ns t l P b) (hl : l.isDrained t = true) : P b := by
  unfold LiveWatcher.isDrained at hl
  simp only [Bool.and_eq_true] at hl
  obtain ⟨⟨hlive, hempty⟩, hqueued⟩ := hl
  obtain ⟨id, q, hf, hs, hb⟩ := h hlive
  have hq : q = [] := by
    rw [hf, Option.all_some, List.isEmpty_iff, hs.queued] at hqueued
    exact hqueued
  rw [hq, Watcher.pending_of_isEmpty K hempty] at hb
  exact hb

end Follows
end ClusterKit
