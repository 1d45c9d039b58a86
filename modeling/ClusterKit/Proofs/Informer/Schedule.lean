/-
# Informers that run as far as they can

Left to itself an informer makes its steps in a certain order: it obeys, opens
its watch, lists, and follows the watch as far as that goes, with its watcher
settling in between. What it gets to in this way, however much time passes, it
gets to by steps, so that whatever holds of all reachable scenes holds then.

Key definitions: `Scene.settle`.
Key theorems: `Scene.Reachable.settle`, `Scene.Reachable.advance`, `Scene.Reachable.awaitSync`.
-/
import ClusterKit.Proofs.Informer.Scene

namespace ClusterKit

/-- A read is some moves of the watcher, and then a change or the end is read by a
further move, if anything is. -/
theorem Watcher.read_cases (K : Kind α) (w : Watcher α) : ∃ v, w.Moves K v ∧
    ((∃ c v', w.read K = (.change c, v') ∧ v.act? K .endRead = some (v', some (some c))) ∨
     (∃ a v', w.read K = (.ended, v') ∧ v.act? K a = some (v', some none)) ∨
     w.read K = (.pending, v)) := by
  unfold read
  cases hc : w.consumer with
  | waiting =>
    refine ⟨w, .refl, .inr (.inr ?_)⟩
    simp only [act?, hc]
  | holding x =>
    refine ⟨w, .refl, .inr (.inr ?_)⟩
    simp only [act?, hc]
  | idle =>
    by_cases hs : w.stopped = true
    · have hbegin : w.act? K .beginRead = some (w.discard, some none) := by simp [act?, hc, hs]
      rw [hbegin]
      exact ⟨w, .refl, .inr (.inl ⟨_, _, rfl, hbegin⟩)⟩
    · have hbegin : w.act? K .beginRead = some ({ w with consumer := .waiting }, none) := by
        simp [act?, hc, hs]
      have hwaits : Moves K w { w with consumer := .waiting } :=
        Moves.refl.step (by rintro item ⟨⟩) hbegin
      rw [hbegin]
      dsimp only
      cases hr : receive? { w with consumer := .waiting } with
      | none =>
        refine ⟨_, hwaits.step (a := .abandonRead) (by rintro item ⟨⟩) ?_, .inr (.inr rfl)⟩
        simp [act, act?]
      | some v =>
        have hreceives : Moves K w v := by
          refine hwaits.step (a := .receive) (by rintro item ⟨⟩) ?_
          simp [act?, hr]
        refine ⟨v, hreceives, ?_⟩
        dsimp only
        cases hv : v.consumer with
        | idle =>
          right; right
          simp [act?, hv]
        | waiting =>
          right; right
          simp [act?, hv]
        | holding x =>
          by_cases hstop : v.stopped = true
          · have hend : v.act? K .endRead =
                some (discard { v with consumer := .idle }, some none) := by
              simp [act?, hv, hstop]
            rw [hend]
            exact .inr (.inl ⟨_, _, rfl, hend⟩)
          · have hend : v.act? K .endRead = some ({ v with consumer := .idle }, some x) := by
              simp [act?, hv, hstop]
            rw [hend]
            cases x with
            | some c => exact .inl ⟨c, _, rfl, rfl⟩
            | none => exact .inr (.inl ⟨_, _, rfl, hend⟩)

namespace Scene

variable {α : Type} {K : Kind α} {api : FakeApi} {ns : String} {cfg : Config}

/-- The scene of a running informer, with no answer on the way. -/
def ofRunning (x : Running α (LiveWatcher α) × Clientset) : Scene α :=
  ⟨x.1, x.2, none⟩

/-- The scene when nothing can move the informer but time or others. -/
def settle (K : Kind α) (api : FakeApi) (ns : String) (cfg : Config) (s : Scene α) : Scene α :=
  ofRunning (s.running.settle K (backend K api ns) cfg s.cluster)

namespace Reachable

variable {r : Running α (LiveWatcher α)} {c : Clientset}

theorem obey (h : Reachable K api ns cfg (ofRunning (r, c))) :
    Reachable K api ns cfg (ofRunning (r.obey K (backend K api ns) cfg c)) := by
  unfold Running.obey
  split
  · exact h.own .cancel
  · exact h

theorem openWatch (h : Reachable K api ns cfg (ofRunning (r, c))) :
    Reachable K api ns cfg (ofRunning (r.openWatch K (backend K api ns) cfg c)) := by
  by_cases hp : r.informer.phase = .opening
  · exact h.step (.openWatch hp)
  · have hsame : r.openWatch K (backend K api ns) cfg c = (r, c) := by
      unfold Running.openWatch
      split
      · rename_i hopening
        exact absurd hopening hp
      · rfl
    rw [hsame]
    exact h

theorem makeList (h : Reachable K api ns cfg (ofRunning (r, c))) :
    Reachable K api ns cfg (ofRunning (r.makeList K (backend K api ns) cfg c)) := by
  unfold Running.makeList
  split
  · rename_i hp
    have hcalled := h.step (.callList hp rfl)
    exact hcalled.own (.replace hp rfl)
  · exact h

theorem pump (h : Reachable K api ns cfg (ofRunning (r, c))) :
    Reachable K api ns cfg (ofRunning (r.pump (backend K api ns) c)) := by
  unfold Running.pump
  cases hw : r.watch with
  | none => exact h
  | some l =>
    obtain ⟨w, feed⟩ := l
    cases feed with
    | none => exact h.own (.turn hw (.move (.settle K _)))
    | some f =>
      have hfed := h.own (.turn hw (.receive rfl))
      have hsettled := hfed.own (.turn rfl (.move (.settle K _)))
      show Reachable K api ns cfg (ofRunning
        ({ r with watch := some (LiveWatcher.settle K ⟨w, some f⟩ c.tracker).1 },
          { c with tracker := (LiveWatcher.settle K ⟨w, some f⟩ c.tracker).2 }))
      unfold LiveWatcher.settle LiveWatcher.receive LiveWatcher.letGo
      dsimp only
      split
      · exact hsettled
      · rename_i hp
        rw [Bool.not_eq_true] at hp
        have hlet := hsettled.own (.turn rfl (.letGo rfl hp))
        exact hlet

/-- What happens to an informer that goes on following leaves all else as it is. -/
theorem act_received (K : Kind α) (api : FakeApi) (ns : String) (cfg : Config) (s : Scene α)
    (hp : s.phase = .following) (ch : Change α) :
    s.act K api ns cfg (.received ch) =
      ⟨{ s.running with informer := s.running.informer.act K (.received ch) }, s.cluster, none⟩ := by
  have hphase : (s.running.informer.act K (.received ch)).phase = .following := by
    unfold Informer.act Informer.act?
    rw [show s.running.informer.phase = .following from hp]
  unfold act Running.act
  dsimp only
  rw [hphase]

theorem receive? (h : Reachable K api ns cfg (ofRunning (r, c)))
    {x : Running α (LiveWatcher α) × Clientset}
    (hx : r.receive? K (backend K api ns) cfg c = some x) :
    Reachable K api ns cfg (ofRunning x) := by
  unfold Running.receive? at hx
  split at hx
  · rename_i l hp hw
    have hread : (backend K api ns).read l c = ((l.watcher.read K).1,
        { l with watcher := (l.watcher.read K).2.settle K }, c) := rfl
    rw [hread] at hx
    obtain ⟨v, hm, hlook⟩ := Watcher.read_cases K l.watcher
    have hmoved := h.own (.turn hw (.move hm))
    rcases hlook with ⟨ch, v', hr, hend⟩ | ⟨a, v', hr, hend⟩ | hr
    · rw [hr] at hx
      cases hx
      have happlied := hmoved.own (.apply hp rfl hend)
      have hfirst := act_received K api ns cfg
        (((ofRunning (r, c)).withWatch ⟨v, l.feed⟩).withWatch ⟨v', l.feed⟩) hp ch
      have hgoes := (congrArg (Reachable K api ns cfg) hfirst).mp happlied
      have hsettled := hgoes.own (.turn rfl (.move (.settle K _)))
      have hsame := act_received K api ns cfg
        ⟨{ r with watch := some { l with watcher := v'.settle K } }, c, none⟩ hp ch
      exact (congrArg (Reachable K api ns cfg) hsame).mpr hsettled
    · rw [hr] at hx
      cases hx
      have hended := hmoved.own (.watchEnded hp rfl hend (.settle K _))
      exact hended
    · rw [hr] at hx
      cases hx
  · cases hx

theorem receiveFor (n : Nat) : ∀ {r : Running α (LiveWatcher α)} {c : Clientset},
    Reachable K api ns cfg (ofRunning (r, c)) →
    Reachable K api ns cfg (ofRunning (r.receiveFor K (backend K api ns) cfg n c)) := by
  induction n with
  | zero => exact fun h => h
  | succ n ih =>
    intro r c h
    unfold Running.receiveFor
    split
    · rename_i r' c' hx
      exact ih (h.receive? hx)
    · exact h

theorem follow (h : Reachable K api ns cfg (ofRunning (r, c))) :
    Reachable K api ns cfg (ofRunning (r.follow K (backend K api ns) cfg c)) := by
  unfold Running.follow
  dsimp only
  exact (receiveFor _ h.pump).pump

theorem advanceRound (h : Reachable K api ns cfg (ofRunning (r, c))) :
    Reachable K api ns cfg (ofRunning (r.advanceRound K (backend K api ns) cfg c)) :=
  h.obey.openWatch.makeList.follow

theorem settleFor (n : Nat) : ∀ {r : Running α (LiveWatcher α)} {c : Clientset},
    Reachable K api ns cfg (ofRunning (r, c)) →
    Reachable K api ns cfg (ofRunning (r.settleFor K (backend K api ns) cfg n c)) := by
  induction n with
  | zero => exact fun h => h.advanceRound
  | succ n ih =>
    intro r c h
    unfold Running.settleFor
    dsimp only
    split
    · rename_i hrest
      exact ih (h.advanceRound.own (.retry hrest))
    · exact h.advanceRound

theorem settleRunning (h : Reachable K api ns cfg (ofRunning (r, c))) :
    Reachable K api ns cfg (ofRunning (r.settle K (backend K api ns) cfg c)) :=
  settleFor _ h

/-- An informer that runs as far as it can gets where it gets by steps. -/
theorem settle {s : Scene α} (h : Reachable K api ns cfg s) (ha : s.answer = none) :
    Reachable K api ns cfg (s.settle K api ns cfg) := by
  obtain ⟨r, c, answer⟩ := s
  subst ha
  exact h.settleRunning

theorem advanceFor (t : Span) (n : Nat) : ∀ {r : Running α (LiveWatcher α)} {c : Clientset},
    Reachable K api ns cfg (ofRunning (r, c)) →
    Reachable K api ns cfg (ofRunning (r.advanceFor K (backend K api ns) cfg t n c)) := by
  induction n with
  | zero => exact fun h => (h.own (.pass t)).settleRunning
  | succ n ih =>
    intro r c h
    unfold Running.advanceFor
    dsimp only
    split
    · exact ih (h.settleRunning.own (.pass _))
    · exact (h.settleRunning.own (.pass t)).settleRunning

/-- An informer that time passes for gets where it gets by steps. -/
theorem advance (h : Reachable K api ns cfg (ofRunning (r, c))) (d : Span) :
    Reachable K api ns cfg (ofRunning (r.advance K (backend K api ns) cfg d c)) :=
  advanceFor _ _ h

theorem awaitSyncFor (t : Span) (n : Nat) : ∀ {r : Running α (LiveWatcher α)} {c : Clientset},
    Reachable K api ns cfg (ofRunning (r, c)) →
    Reachable K api ns cfg
      (ofRunning (r.awaitSyncFor K (backend K api ns) cfg t n c).2) := by
  induction n with
  | zero => exact fun h => h.own (.pass t)
  | succ n ih =>
    intro r c h
    unfold Running.awaitSyncFor
    dsimp only
    split
    · exact h.settleRunning
    · split
      · exact ih (h.settleRunning.own (.pass _))
      · exact h.settleRunning.own (.pass t)

/-- An informer whose first list is awaited gets where it gets by steps. -/
theorem awaitSync (h : Reachable K api ns cfg (ofRunning (r, c))) (d : Span) :
    Reachable K api ns cfg (ofRunning (r.awaitSync K (backend K api ns) cfg d c).2) := by
  unfold Running.awaitSync
  split
  · exact h
  · split
    · exact h
    · exact awaitSyncFor _ _ h

end Reachable
end Scene
end ClusterKit
