/-
# Watchers that are not stopped

A watcher that is sent only what fits its type, and that nobody stops, goes on
for ever. At any time what has been read is a beginning of what it was sent, and
one who reads on gets the rest and finds no end (`Watcher.Serves.readAll`).

Key definitions: `Watcher.Act.isInside`, `Watcher.Serves`.
Key theorems: `Watcher.Serves.act`, `Watcher.Serves.receiveAll`, `Watcher.Serves.readAll`.
-/
import ClusterKit.Proofs.Watch.Lasting
import ClusterKit.Proofs.Watch.Reading

namespace ClusterKit

variable {α : Type} {K : Kind α} {r : ApiResource}

/-! ### Events that fit -/

/-- Events that fit are all passed on. -/
theorem Forwarded.changes_of_fits {es : List (WatchEvent Erased)} (h : ∀ e ∈ es, e.Fits K r) :
    cause? K r (es.map .ok) = none ∧ (changes K r (es.map .ok)).length = es.length := by
  induction es with
  | nil => exact ⟨rfl, rfl⟩
  | cons e es ih =>
    obtain ⟨c, hc⟩ := ofItem_of_fits (h e List.mem_cons_self)
    obtain ⟨hcause, hlength⟩ := ih fun e he => h e (List.mem_cons_of_mem _ he)
    simp [cause?, changes, hc, hcause, hlength]

/-- A change whose event fits is passed on as the change of what its object stands for. -/
theorem Forwarded.changes_event {c : Change Erased} (h : c.event.Fits K r) :
    changes K r [.ok c.event] = (c.through K.restored?).toList := by
  obtain ⟨d, hd⟩ := ofItem_of_fits h
  have hthrough : changeOf K (.ok c.event) = some d := changeOf_of_pass hd
  simp only [changeOf, Change.change?_event, Option.bind_some] at hthrough
  simp [changes, hd, hthrough]

/-! ### Watchers that are not stopped -/

namespace Watcher

/-- Whether the pump or the one who reads makes the move. -/
def Act.isInside : Act → Bool
  | .send _ | .close | .beginStop | .endStop | .discard => false
  | _ => true

theorem Act.isInside_of_read {w w' : Watcher α} {a : Act} {x : Option (Change α)}
    (h : w.act? K a = some (w', some x)) : a.isInside = true := by
  rcases (move_of_act? h).act_of_read with rfl | rfl <;> rfl

/-- The watcher works on the events `es`, of which `seen` has been read, and nobody has begun
to stop it. -/
structure Serves (K : Kind α) (r : ApiResource) (es : List (WatchEvent Erased))
    (seen : List (Change α)) (w : Watcher α) : Prop where
  thrives : w.Thrives K r
  sound : Sound w
  flow : Flow K (es.map .ok) seen w
  stops : w.stops = 0
  termination : w.termination = none

variable {w w' : Watcher α} {es : List (WatchEvent Erased)} {seen : List (Change α)} {a : Act}
  {out : Option (Option (Change α))}

theorem serves_ofItems (K : Kind α) (r : ApiResource) :
    (Watcher.ofItems r [] false : Watcher α).Serves K r [] [] where
  thrives := by
    refine ⟨rfl, rfl, rfl, rfl, rfl, ?_⟩
    intro item hitem
    cases hitem
  sound := .ofItems r [] false
  flow := .ofItems K r [] false
  stops := rfl
  termination := rfl

namespace Serves

theorem isCalm (h : w.Serves K r es seen) (hc : w.consumer = .idle) : IsCalm w where
  sound := h.sound
  consumer := hc
  receiving := h.thrives.receiving
  stopped := h.thrives.stopped
  termination := by simp [h.termination]

/-- Nothing that the pump or the one who reads does ends the watch, and no end is read. -/
theorem act (h : w.Serves K r es seen) (hw : w.act? K a = some (w', out))
    (ha : a.isInside = true) :
    w'.Serves K r es (seen ++ out.join.toList) ∧ out ≠ some none := by
  have hm := move_of_act? hw
  have hitem : a.item? = none := by cases a <;> first | rfl | cases ha
  have hbegin : a ≠ .beginStop := by
    rintro rfl
    cases ha
  have hunstopped : ¬ (w'.stops ≠ 0 ∨ w'.stopped = true) := by
    intro hs
    rcases hm.stop_cases hs with (hs | hs) | hs
    · exact hs h.stops
    · cases h.thrives.stopped.symm.trans hs
    · exact hbegin hs
  rw [not_or, not_not, Bool.not_eq_true] at hunstopped
  have hended : w'.ended = false := by
    rw [← h.thrives.ended]
    cases hm with
    | close => cases ha
    | _ => rfl
  have htermination : w'.termination = none := by
    rcases hm.termination_cases with ht | ⟨-, ⟨ht, -⟩ | ⟨t, -, hp, -⟩⟩
    · exact ht.trans h.termination
    · exact absurd ht hbegin
    · have hpumping := h.thrives.pumping
      simp [isPumping, hp] at hpumping
  refine ⟨⟨?_, h.sound.move hm, ?_, hunstopped.1, htermination⟩, ?_⟩
  · refine h.thrives.act hw ?_ (by simp [isCut, hended, hunstopped.2])
    rintro item rfl
    cases ha
  · simpa [hitem] using h.flow.move hm h.sound
  · rintro rfl
    have hsome := h.sound.read_end hm
    rw [h.termination] at hsome
    cases hsome

/-- What fits joins the events that the watcher works on. -/
theorem receiveAll {fs : List (WatchEvent Erased)} : ∀ {es : List (WatchEvent Erased)}
    {w : Watcher α}, w.Serves K r es seen → (∀ e ∈ fs, e.Fits K r) →
      (LiveWatcher.receiveAll K (fs.map .ok) w).Serves K r (es ++ fs) seen := by
  induction fs with
  | nil =>
    intro es w h _
    rw [List.append_nil]
    exact h
  | cons f fs ih =>
    intro es w h hfits
    have hsent : w.act? K (.send (.ok f)) =
        some ({ w with backlog := w.backlog ++ [.ok f] }, none) := by
      simp [act?, h.thrives.ended]
    have hact : w.act K (.send (.ok f)) = { w with backlog := w.backlog ++ [.ok f] } := by
      unfold Watcher.act
      rw [hsent]
    have hstep : (w.act K (.send (.ok f))).Serves K r (es ++ [f]) seen := by
      rw [hact]
      refine ⟨?_, { h.sound with }, ?_, h.stops, h.termination⟩
      · refine h.thrives.act hsent ?_ (by simp [isCut, h.thrives.ended, h.thrives.stopped])
        intro item hitem
        cases hitem
        exact ⟨f, rfl, hfits f List.mem_cons_self⟩
      · rw [List.map_append]
        exact h.flow.send h.thrives.ended (.ok f)
    rw [List.append_cons]
    exact ih hstep fun e he => hfits e (List.mem_cons_of_mem _ he)

theorem settle (h : w.Serves K r es seen) : (w.settle K).Serves K r es seen := by
  refine settle_induction (P := fun v => v.Serves K r es seen) ?_ h
  intro v v' hstep hv
  obtain ⟨a, ha, hm⟩ := move_of_pumpStep? hstep
  have hinside : a.isInside = true := by cases a <;> first | rfl | cases ha
  simpa using (hv.act (act?_eq_some_iff.mpr hm) hinside).1

/-- What has been read is a beginning of what the events come to. -/
theorem read_prefix (h : w.Serves K r es seen) :
    seen <+: Forwarded.changes K r (es.map .ok) := by
  rw [← h.thrives.resource]
  exact (List.prefix_append _ _).trans h.flow.delivered

/-- Where nothing is on its way any more, all has been read. -/
theorem read_eq (h : w.Serves K r es seen) (hempty : w.isEmpty = true) :
    seen = Forwarded.changes K r (es.map .ok) := by
  unfold isEmpty at hempty
  simp only [Bool.and_eq_true, List.isEmpty_iff, Option.isNone_iff_eq_none] at hempty
  obtain ⟨⟨⟨hheld, hplace⟩, hoffered⟩, hbacklog⟩ := hempty
  obtain ⟨taken, htaken, -, hall⟩ := h.flow.working h.thrives.pumping
  have hseen := hall h.thrives.receiving
  rw [hbacklog, List.append_nil] at htaken
  rw [← htaken, h.thrives.resource] at hseen
  simpa [buffered, hheld, hplace, hoffered] using hseen

/-- The one who reads has read the change in the channel. -/
theorem emptied (h : w.Serves K r es seen) (hc : w.consumer = .idle) {c : Change α}
    (hplace : w.place = some c) :
    Serves K r es (seen ++ [c]) { w with place := none } where
  thrives := { h.thrives with }
  sound := (h.isCalm hc).emptied.sound
  flow := h.flow.emptied (h.isCalm hc) hplace
  stops := h.stops
  termination := h.termination

/-- One who reads on finds no end. -/
theorem readFor_ended (n : Nat) : ∀ {seen : List (Change α)} {w : Watcher α},
    w.Serves K r es seen → w.consumer = .idle → (w.readFor K n).2.1 = false := by
  induction n with
  | zero => exact fun _ _ => rfl
  | succ n ih =>
    intro seen w h hc
    have hv := h.settle
    have hcalm := (h.flow.settle (h.isCalm hc)).1
    unfold readFor
    cases hplace : (w.settle K).place with
    | some c =>
      rw [hcalm.read_of_place hplace]
      exact ih (hv.emptied hcalm.consumer hplace) hcalm.consumer
    | none =>
      have hopen : (w.settle K).isOpen = true := by
        by_contra hclosed
        rw [Bool.not_eq_true] at hclosed
        cases (hasRecorded_of_isPumping hv.thrives.pumping).symm.trans
          (hasRecorded_of_isOpen hclosed)
      obtain ⟨v, hread⟩ := hcalm.read_of_open hplace hopen
      rw [hread]

/-- One who reads on gets the rest. -/
theorem readAll (h : w.Serves K r es seen) (hfits : ∀ e ∈ es, e.Fits K r)
    (hc : w.consumer = .idle) : ∃ rest w', w.readAll K = (rest, false, w') ∧
      seen ++ rest = Forwarded.changes K r (es.map .ok) := by
  have hshort : (es.map .ok : List RawItem).length < seen.length + (w.backlog.length + 3) := by
    obtain ⟨hcause, hall⟩ := Forwarded.changes_of_fits hfits
    obtain ⟨taken, htaken, hnone, hseen⟩ := h.flow.working h.thrives.pumping
    have hoffered : w.pump.offered.length ≤ 1 := by cases w.pump <;> simp [Pump.offered]
    have hplace : w.place.toList.length ≤ 1 := by cases w.place <;> simp
    have hcount := congrArg List.length (hseen h.thrives.receiving)
    have hrest := Forwarded.length_changes_le K r w.backlog
    rw [h.thrives.resource] at hcount hnone
    rw [htaken, Forwarded.changes_append _ hnone] at hall
    have hlength := congrArg List.length htaken
    simp only [List.length_append, List.length_map, buffered, hc, Consumer.held, List.length_nil]
      at hcount hall hlength ⊢
    omega
  obtain ⟨rest, found, w', hread, hall, -⟩ := readFor_changes _ (h.isCalm hc) h.flow hshort
  have hfound : found = false := by
    have hended := h.readFor_ended (w.backlog.length + 3) hc
    rw [hread] at hended
    exact hended
  rw [h.thrives.resource] at hall
  exact ⟨rest, w', hfound ▸ hread, hall⟩

end Serves
end Watcher

theorem LiveWatcher.consumer_receiveAll (K : Kind α) (items : List RawItem) : ∀ w : Watcher α,
    (receiveAll K items w).consumer = w.consumer := by
  induction items with
  | nil => exact fun _ => rfl
  | cons item items ih =>
    intro w
    refine (ih _).trans ?_
    cases hend : w.ended <;> simp [Watcher.act, Watcher.act?, hend]

end ClusterKit
