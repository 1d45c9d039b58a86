/-
# Watches that go on

A watch ends by itself only if it is sent something that does not fit its type.
Where all writes go through an api, and the api's type names no other type than
that of the resource, whatever a watch is sent fits. So the watch goes on until
someone stops it, or its other end is closed.

Key definitions: `WatchEvent.Fits`, `Watcher.Thrives`, `LiveWatcher.Lasts`.
Key theorems: `Watcher.Thrives.act`, `LiveWatcher.Lasts.disturbed`, `LiveWatcher.Lasts.turn`.
-/
import ClusterKit.Proofs.Kind.Named
import ClusterKit.Proofs.Watch.Following

namespace ClusterKit

open Tracker

variable {α : Type} {K : Kind α} {r : ApiResource}

/-! ### Events that fit -/

/-- The event is a change of an object that a watch of the resource takes. -/
def WatchEvent.Fits (K : Kind α) (r : ApiResource) (e : WatchEvent Erased) : Prop :=
  ∃ c : Change Erased, e = c.event ∧ ∃ a, narrow K r c.object = .ok a

theorem Forwarded.ofItem_of_fits {e : WatchEvent Erased} (h : e.Fits K r) :
    ∃ c, Forwarded.ofItem K r (.ok e) = .pass c := by
  obtain ⟨c, rfl, a, ha⟩ := h
  cases c with
  | added o => exact ⟨.added a, congrArg (ofNarrowed .added) ha⟩
  | modified o => exact ⟨.modified a, congrArg (ofNarrowed .modified) ha⟩
  | deleted o => exact ⟨.deleted a, congrArg (ofNarrowed .deleted) ha⟩

/-- A watch takes each object of a typed collection. -/
theorem Tracker.Tame.exists_narrow {t : Tracker} (h : t.Tame K r) (hK : K.Faithful)
    (hb : K.Binds r) {k : ObjectKey} {o : Erased} (ho : t.find? r.gvr k = some o) :
    ∃ a, narrow K r o = .ok a := by
  obtain ⟨a, ha, -⟩ := h.restore hK ho
  obtain ⟨b, e, he, hbody⟩ := h.typed k o ho
  have hrestored : narrow.restored K o = .ok a := by
    unfold narrow.restored
    rw [ha]
  refine ⟨a, ?_⟩
  unfold narrow
  split
  · rename_i t ht
    rw [if_pos (hb b e t he (hbody.1 ▸ ht)), hrestored]
  · exact hrestored

/-- What a call tells of a typed collection fits. -/
theorem Tracker.Entry.fits_change? {e : Entry} {ns : String} (hK : K.Faithful)
    (hbinds : K.Binds r) (hb : e.before.Tame K r) (ha : e.after.Tame K r) {c : Change Erased}
    (h : e.change? r.gvr ns = some c) : c.event.Fits K r := by
  rcases e.quiet_or_makes with hq | ⟨m, hm⟩
  · rw [hq.change?] at h
    cases h
  · rw [hm.change?] at h
    split at h
    · rename_i hw
      obtain rfl := Option.some.inj h
      refine ⟨m.change, rfl, ?_⟩
      rcases hm.find?_object with hfound | hfound
      · exact ha.exists_narrow hK hbinds (hw.1 ▸ hfound)
      · exact hb.exists_narrow hK hbinds (hw.1 ▸ hfound)
    · cases h

/-! ### Watchers that go on -/

namespace Watcher

variable {w w' : Watcher α}

/-- The watcher has been stopped, or its source has been closed. -/
def isCut (w : Watcher α) : Bool :=
  w.ended || w.stopped

/-- The watcher works, and nothing that its source has sent is about to end it. -/
structure Thrives (K : Kind α) (r : ApiResource) (w : Watcher α) : Prop where
  resource : w.resource = r
  pumping : w.isPumping = true
  receiving : w.receiving = true
  ended : w.ended = false
  stopped : w.stopped = false
  backlog : ∀ item ∈ w.backlog, ∃ e, item = .ok e ∧ e.Fits K r

theorem Thrives.isLive (h : w.Thrives K r) : w.isLive = true := by
  simp [Watcher.isLive, h.pumping, h.receiving, h.ended, h.stopped]

/-- A watcher that goes on still does after any move that does not cut it. -/
theorem Thrives.act {a : Act} {out : Option (Option (Change α))} (h : w.Thrives K r)
    (hw : w.act? K a = some (w', out))
    (ha : ∀ item, a = .send item → ∃ e, item = .ok e ∧ e.Fits K r) (hcut : w'.isCut = false) :
    w'.Thrives K r := by
  have ⟨hres, hpump, hrec, hend, hstop, hlog⟩ := h
  have hrest : ∀ {item rest}, w.backlog = item :: rest →
      ∀ i ∈ rest, ∃ e, i = .ok e ∧ e.Fits K r :=
    fun hb i hi => hlog i (hb ▸ List.mem_cons_of_mem _ hi)
  cases move_of_act? hw with
  | @send item he =>
    refine ⟨hres, hpump, hrec, hend, hstop, ?_⟩
    intro i hi
    rcases List.mem_append.mp hi with hi | hi
    · exact hlog i hi
    · exact ha i (congrArg _ (List.mem_singleton.mp hi).symm)
  | close => simp [isCut] at hcut
  | notice hs hp => simp [hstop] at hs
  | pass hp hb hf => exact ⟨hres, rfl, hrec, hend, hstop, hrest hb⟩
  | skip hp hb hf => exact ⟨hres, hpump, hrec, hend, hstop, hrest hb⟩
  | @meet item rest t hp hb hf =>
    obtain ⟨e, rfl, hfits⟩ := hlog item (hb ▸ List.mem_cons_self)
    obtain ⟨c, hc⟩ := Forwarded.ofItem_of_fits (hres ▸ hfits)
    rw [hc] at hf
    cases hf
  | runOut hp hb he => simp [hend] at he
  | refused hp hr => simp [hrec] at hr
  | hand hp hr hc => exact ⟨hres, rfl, hr, hend, hstop, hlog⟩
  | record hp => simp [isPumping, hp] at hpump
  | leave hp => simp [isPumping, hp] at hpump
  | beginStop => exact ⟨hres, hpump, hrec, hend, hstop, hlog⟩
  | endStop hn => simp [isCut] at hcut
  | refuseRead hc hs => simp [hstop] at hs
  | beginRead hc hs => exact ⟨hres, hpump, hrec, hend, hstop, hlog⟩
  | receive hc hp => exact ⟨hres, hpump, hrec, hend, hstop, hlog⟩
  | receiveEnd hc hp ho => exact ⟨hres, hpump, hrec, hend, hstop, hlog⟩
  | refuseResult hc hs => simp [hstop] at hs
  | endRead hc hs => exact ⟨hres, hpump, hrec, hend, hstop, hlog⟩
  | abandonRead hc => exact ⟨hres, hpump, hrec, hend, hstop, hlog⟩
  | discard hc hs => simp [hstop] at hs

/-- What has been cut stays so. -/
theorem isCut_of_act {a : Act} {out : Option (Option (Change α))}
    (hw : w.act? K a = some (w', out)) (hcut : w'.isCut = false) : w.isCut = false := by
  cases move_of_act? hw with
  | close => simp [isCut] at hcut
  | endStop hn => simp [isCut] at hcut
  | _ => exact hcut

/-- A watcher that is not cut in the end was not cut before, and its moves have not ended it. -/
theorem Moves.thrives (h : w.Moves K w') (hcut : w'.isCut = false) :
    w.isCut = false ∧ (w.Thrives K r → w'.Thrives K r) := by
  induction h with
  | refl => exact ⟨hcut, id⟩
  | step _ ha hv ih =>
    obtain ⟨hfirst, hthrives⟩ := ih (isCut_of_act hv hcut)
    refine ⟨hfirst, ?_⟩
    intro hw
    exact (hthrives hw).act hv (fun item hitem => absurd hitem (ha item)) hcut

end Watcher

namespace LiveWatcher

theorem isCut_receiveAll (items : List RawItem) : ∀ w : Watcher α,
    (receiveAll K items w).isCut = w.isCut := by
  induction items with
  | nil => exact fun _ => rfl
  | cons item items ih =>
    intro w
    refine (ih _).trans ?_
    unfold Watcher.act Watcher.act?
    dsimp only
    split <;> rename_i hact
    · split at hact
      · cases hact
      · cases hact
        rfl
    · rfl

theorem thrives_receiveAll (items : List RawItem) : ∀ {w : Watcher α}, w.Thrives K r →
    (∀ item ∈ items, ∃ e, item = .ok e ∧ e.Fits K r) → (receiveAll K items w).Thrives K r := by
  induction items with
  | nil => exact fun h _ => h
  | cons item items ih =>
    intro w h hitems
    have hsent : w.act? K (.send item) =
        some ({ w with backlog := w.backlog ++ [item] }, none) := by
      simp [Watcher.act?, h.ended]
    have hact : w.act K (.send item) = { w with backlog := w.backlog ++ [item] } := by
      unfold Watcher.act
      rw [hsent]
    refine ih ?_ fun i hi => hitems i (List.mem_cons_of_mem _ hi)
    show ((w.act K (.send item)).Thrives K r)
    rw [hact]
    refine h.act hsent ?_ (by simp [Watcher.isCut, h.ended, h.stopped])
    intro i hi
    cases hi
    exact hitems _ List.mem_cons_self

/-- Unless it is cut, the watch goes on: all that is queued for it fits. -/
def Lasts (K : Kind α) (sel : Selector) (r : ApiResource) (ns : String) (t : Tracker)
    (l : LiveWatcher α) : Prop :=
  l.watcher.isCut = false → l.watcher.Thrives K r ∧ ∃ id q, l.feed = some ⟨id, sel⟩ ∧
    t.IsSubscribed id r.gvr ns q ∧ ∀ e ∈ q, e.Fits K r

variable {sel : Selector} {ns : String} {t t' : Tracker} {l l' : LiveWatcher α}

theorem lasts_ofWatch (K : Kind α) (sel : Selector) (r : ApiResource) (ns : String) (t : Tracker) :
    Lasts K sel r ns (t.watch r.gvr ns).2
      (.ofSource r (.tracker ⟨(t.watch r.gvr ns).1, sel⟩)) := by
  intro _
  refine ⟨⟨rfl, rfl, rfl, rfl, rfl, ?_⟩, _, [], rfl, isSubscribed_watch t r.gvr ns, ?_⟩
  · intro item hitem
    cases hitem
  · intro e he
    cases he

/-- What others do is told as what fits. -/
theorem Lasts.disturbed {api : FakeApi} {c c' : Clientset} (hK : K.Faithful)
    (hbinds : K.Binds api.resource) (hc : c.Tame K api)
    (h : l.Lasts K sel api.resource ns c.tracker) (hd : FakeApi.Disturbs K api l.feed c c') :
    l.Lasts K sel api.resource ns c'.tracker := by
  have hafter := (hd.tame hc).tracker
  obtain ⟨-, d, ht, -, hown⟩ := hd.exists_call hc.isDefault
  rw [ht] at hafter ⊢
  intro hcut
  obtain ⟨hw, id, q, hf, hs, hq⟩ := h hcut
  refine ⟨hw, id, _, hf, hs.after_of_others (e := ⟨c.tracker, d⟩) hc.tracker.placed (hown _ hf), ?_⟩
  intro event hevent
  rcases List.mem_append.mp hevent with hold | hnew
  · exact hq event hold
  · obtain ⟨change, hchange, rfl⟩ := Option.map_eq_some_iff.mp (Option.mem_toList.mp hnew)
    exact Entry.fits_change? (e := ⟨c.tracker, d⟩) hK hbinds hc.tracker hafter hchange

/-- What a watch does by itself does not end it. -/
theorem Lasts.turn (h : l.Lasts K sel r ns t) (ht : l.Turn K t l' t') :
    l'.Lasts K sel r ns t' := by
  intro hcut
  cases ht with
  | receive hf =>
    obtain ⟨hw, id, q, hf', hs, hq⟩ := h ((isCut_receiveAll _ _).symm.trans hcut)
    rw [hf, Option.some.injEq] at hf'
    subst hf'
    refine ⟨thrives_receiveAll _ hw ?_, id, [], hf, hs.drain.2, ?_⟩
    · rw [hs.drain.1]
      intro item hitem
      obtain ⟨event, hevent, rfl⟩ := List.mem_map.mp hitem
      exact ⟨event, rfl, hq event (List.mem_filter.mp hevent).1⟩
    · intro event hevent
      cases hevent
  | move hm =>
    obtain ⟨hfirst, hthrives⟩ := hm.thrives hcut
    obtain ⟨hw, hrest⟩ := h hfirst
    exact ⟨hthrives hw, hrest⟩
  | letGo hf hp =>
    rw [(h hcut).1.pumping] at hp
    cases hp

/-- A read does not end a watch. -/
theorem Lasts.act (h : l.Lasts K sel r ns t) {a : Watcher.Act} {w : Watcher α}
    {out : Option (Change α)} (hw : l.watcher.act? K a = some (w, some out)) :
    Lasts K sel r ns t { l with watcher := w } := by
  intro hcut
  obtain ⟨hthrives, hrest⟩ := h (Watcher.isCut_of_act hw hcut)
  refine ⟨hthrives.act hw ?_ hcut, hrest⟩
  intro item hitem
  exact absurd hitem (Watcher.not_send_of_read hw item)

end LiveWatcher
end ClusterKit
