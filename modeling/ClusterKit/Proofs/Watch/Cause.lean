/-
# Causes of ends

A stop records its cause before it marks the watcher, and the pump records what
it has found before it lets go of the channel. So whoever reads the end finds a
cause there (`Watcher.Sound.read_end`), and it is that of a stop just if a stop
began while there was none (`Watcher.stopped_iff_begun_first`).

Key definitions: `Watcher.hasRecorded`, `Watcher.Sound`.
Key theorems: `Watcher.Sound.move`, `Watcher.Sound.read_end`, `Watcher.stopped_iff_begun_first`.
-/
import ClusterKit.Proofs.Watch.Run

namespace ClusterKit

/-- No item ends a watch as a stop does. -/
theorem Forwarded.ofItem_ne_stopped {K : Kind α} {r : ApiResource} {item : RawItem} :
    Forwarded.ofItem K r item ≠ .finish .stopped := by
  have hnarrowed : ∀ (change : α → Change α) (o : Erased),
      Forwarded.ofNarrowed change (narrow K r o) ≠ .finish .stopped := by
    intro change o
    unfold narrow narrow.restored
    cases o.types with
    | none => cases K.restore o <;> exact nofun
    | some t =>
      dsimp only
      split
      · cases K.restore o <;> exact nofun
      · exact nofun
  match item with
  | .ok (.added o) => exact hnarrowed _ o
  | .ok (.modified o) => exact hnarrowed _ o
  | .ok (.deleted o) => exact hnarrowed _ o
  | .ok (.bookmark _) => exact nofun
  | .ok (.error _) => exact nofun
  | .error e => cases e <;> exact nofun

namespace Watcher

/-- Whether the pump has recorded why the watch ends. -/
def hasRecorded (w : Watcher α) : Bool :=
  match w.pump with
  | .leaving | .finished => true
  | _ => false

/-- What holds of a watcher at all times: a stop that is under way has a cause, and so
has a pump that has recorded one, or has found that nobody receives; before that there is no
cause but that of a stop; a consumer receives nothing more only after a stop, and then
has nothing; and it has taken the end only behind all that the pump has handed over. -/
structure Sound (w : Watcher α) : Prop where
  stop : w.stops ≠ 0 ∨ w.stopped = true → w.termination.isSome = true
  recorded : w.hasRecorded = true → w.termination.isSome = true
  gaveUp : w.pump = .ending .stopped → w.termination.isSome = true
  undecided : w.hasRecorded = false → w.termination = none ∨ w.termination = some .stopped
  refused : w.receiving = false → w.stopped = true ∧ w.place = none ∧ w.consumer = .idle
  ended : w.consumer = .holding none → w.place = none ∧ w.pump = .finished

variable {K : Kind α} {w w' : Watcher α} {a : Act} {out : Option (Option (Change α))}

theorem hasRecorded_of_isPumping (h : w.isPumping = true) : w.hasRecorded = false := by
  unfold isPumping at h
  unfold hasRecorded
  cases hp : w.pump <;> simp [hp] at h ⊢

theorem hasRecorded_of_isOpen (h : w.isOpen = false) : w.hasRecorded = true := by
  unfold isOpen at h
  unfold hasRecorded
  cases hp : w.pump <;> simp [hp] at h ⊢

theorem pump_of_isOpen (h : w.isOpen = false) : w.pump = .finished := by
  unfold isOpen at h
  cases hp : w.pump <;> simp [hp] at h ⊢

theorem termination_record (t : Termination) (w : Watcher α) :
    (w.record t).termination.isSome = true := by
  simp [record]

/-- The cause that is there after a record was there before, or is the recorded one. -/
theorem termination_of_record {t t' : Termination} (h : (w.record t).termination = some t') :
    w.termination = some t' ∨ w.termination = none ∧ t = t' := by
  unfold record at h
  rcases Option.or_eq_some_iff.mp h with h | ⟨hn, h⟩
  · exact .inl h
  · exact .inr ⟨hn, Option.some.inj h⟩

namespace Sound

theorem ofItems (r : ApiResource) (items : List RawItem) (ended : Bool) :
    Sound (Watcher.ofItems r items ended : Watcher α) where
  stop := by simp [Watcher.ofItems]
  recorded := nofun
  gaveUp := nofun
  undecided := fun _ => .inl rfl
  refused := nofun
  ended := nofun

/-- A pump that has not come to its end has not told the consumer of one. -/
theorem not_ended (h : Sound w) (hp : w.pump ≠ .finished) : w.consumer ≠ .holding none :=
  fun hc => hp (h.ended hc).2

/-- Only one who reads takes from the channel, so it still receives. -/
theorem receiving_of_consumer (h : Sound w) (hc : w.consumer ≠ .idle) : w.receiving = true := by
  cases hr : w.receiving with
  | true => rfl
  | false => exact absurd (h.refused hr).2.2 hc

/-- The consumer gives up what is buffered. -/
theorem discard (h : Sound w) (hc : w.consumer = .idle) (hs : w.stopped = true) :
    Sound w.discard where
  stop := h.stop
  recorded := h.recorded
  gaveUp := h.gaveUp
  undecided := h.undecided
  refused := fun _ => ⟨hs, rfl, hc⟩
  ended := fun he => nomatch hc.symm.trans he

/-- The consumer does not hold anything any more. -/
theorem release (h : Sound w) : Sound { w with consumer := .idle } :=
  { h with
    refused := fun hr => ⟨(h.refused hr).1, (h.refused hr).2.1, rfl⟩
    ended := nofun }

/-- A pump that lets go of the source has found a cause, which is there already if it is
that of a stop. -/
theorem finish (h : Sound w) (hp : w.isPumping = true) {t : Termination}
    (ht : t = .stopped → w.termination.isSome = true) : Sound (w.finish t) :=
  { h with
    recorded := nofun
    gaveUp := fun he => ht (Pump.ending.inj he)
    undecided := fun _ => h.undecided (hasRecorded_of_isPumping hp)
    ended := fun hc => absurd hc (h.not_ended fun he => by simp [isPumping, he] at hp) }

/-- What holds of a watcher is kept by each move. -/
theorem move (hm : Move K w a w' out) (h : Sound w) : Sound w' := by
  cases hm with
  | send he => exact { h with }
  | close => exact { h with }
  | notice hs hp => exact h.finish hp fun _ => h.stop (.inr hs)
  | pass hp hb hf =>
    exact { h with
      recorded := nofun
      gaveUp := nofun
      undecided := fun _ => h.undecided (by simp [hasRecorded, hp])
      ended := fun hc => absurd hc (h.not_ended (by simp [hp])) }
  | skip hp hb hf => exact { h with }
  | @meet item rest t hp hb hf =>
    refine finish (w := { w with backlog := rest, pulled := w.pulled + 1 }) { h with } ?_ ?_
    · simp [isPumping, hp]
    · rintro rfl
      exact absurd hf Forwarded.ofItem_ne_stopped
  | runOut hp hb he => exact h.finish (by simp [isPumping, hp]) nofun
  | refused hp hr =>
    exact h.finish (by simp [isPumping, hp]) fun _ => h.stop (.inr (h.refused hr).1)
  | hand hp hr hc =>
    exact { h with
      recorded := nofun
      gaveUp := nofun
      undecided := fun _ => h.undecided (by simp [hasRecorded, hp])
      refused := fun hn => nomatch hr.symm.trans hn
      ended := fun hc => absurd hc (h.not_ended (by simp [hp])) }
  | record hp =>
    exact { h with
      stop := fun _ => termination_record _ w
      recorded := fun _ => termination_record _ w
      gaveUp := nofun
      undecided := nofun
      ended := fun hc => absurd hc (h.not_ended (by simp [hp])) }
  | leave hp =>
    exact { h with
      recorded := fun _ => h.recorded (by simp [hasRecorded, hp])
      gaveUp := nofun
      undecided := nofun
      ended := fun hc => ⟨(h.ended hc).1, rfl⟩ }
  | beginStop =>
    refine { h with
      stop := fun _ => termination_record _ w
      recorded := fun _ => termination_record _ w
      gaveUp := fun _ => termination_record _ w
      undecided := fun hp => .inr ?_ }
    rcases h.undecided hp with ht | ht <;> simp [Watcher.record, ht]
  | endStop hn =>
    exact { h with
      stop := fun _ => h.stop (.inl hn)
      refused := fun hr => ⟨rfl, (h.refused hr).2⟩ }
  | refuseRead hc hs => exact h.discard hc hs
  | beginRead hc hs =>
    exact { h with
      refused := fun hr => absurd (hs.symm.trans (h.refused hr).1) Bool.false_ne_true
      ended := fun he => by cases he }
  | receive hc hp =>
    have hr := h.receiving_of_consumer (by simp [hc])
    exact { h with
      refused := fun hn => nomatch hr.symm.trans hn
      ended := fun he => by cases he }
  | receiveEnd hc hp ho =>
    have hr := h.receiving_of_consumer (by simp [hc])
    exact { h with
      refused := fun hn => nomatch hr.symm.trans hn
      ended := fun _ => ⟨hp, pump_of_isOpen (ho.resolve_right (by simp [hr]))⟩ }
  | refuseResult hc hs => exact h.release.discard rfl hs
  | endRead hc hs => exact h.release
  | abandonRead hc => exact h.release
  | discard hc hs => exact h.discard hc hs

theorem run (h : Sound w) (as : List Act) : Sound (w.run K as) :=
  run_induction Sound.move as h

/-- Whoever reads the end finds a cause recorded. -/
theorem read_end (h : Sound w) (hm : Move K w a w' (some none)) :
    w.termination.isSome = true := by
  cases hm with
  | refuseRead hc hs => exact h.stop (.inr hs)
  | refuseResult hc hs => exact h.stop (.inr hs)
  | endRead hc hs => exact h.recorded (by simp [hasRecorded, (h.ended hc).2])

/-- The pump never records a stop that is not recorded yet. -/
theorem record_ne_stopped (h : Sound w) (hn : w.termination = none)
    {t : Termination} (hp : w.pump = .ending t) : t ≠ .stopped := by
  rintro rfl
  simpa [hn] using h.gaveUp hp

end Sound

/-! ### Stops -/

/-- A stop that is under way, or has marked the watcher, has begun. -/
theorem exists_beginStop (hw : w.stops = 0 ∧ w.stopped = false) {as : List Act}
    (h : (w.run K as).stops ≠ 0 ∨ (w.run K as).stopped = true) :
    ∃ m ∈ w.history K as, m.act = .beginStop := by
  obtain ⟨m, hm, hbefore, hafter, hmove⟩ :=
    exists_origin (P := fun w => w.stops ≠ 0 ∨ w.stopped = true) as (by simp [hw]) h
  exact ⟨m, hm, (hmove.stop_cases hafter).resolve_left hbefore⟩

/-- The cause recorded is that of a stop just if a stop has begun while there was none. -/
theorem stopped_iff_begun_first (hs : Sound w) (hw : w.termination = none) (as : List Act) :
    (w.run K as).termination = some .stopped ↔
      ∃ m ∈ w.history K as, m.act = .beginStop ∧ m.before.termination = none := by
  constructor
  · intro h
    obtain ⟨m, hm, hbefore, hafter, hmove⟩ :=
      exists_origin (P := fun w => w.termination = some .stopped) as (by simp [hw]) h
    rcases hmove.termination_cases with he | ⟨hn, ⟨ha, -⟩ | ⟨t, -, hp, ht⟩⟩
    · exact absurd (he ▸ hafter) hbefore
    · exact ⟨m, hm, ha, hn⟩
    · have hsound : Sound m.before := history_induction Sound.move hs hm
      obtain rfl := Option.some.inj (ht.symm.trans hafter)
      exact absurd rfl (hsound.record_ne_stopped hn hp)
  · rintro ⟨⟨v, a⟩, hm, rfl, hn⟩
    obtain ⟨h, h', hh⟩ := List.append_of_mem hm
    obtain ⟨as₁, as₂, rfl, -, rfl, -⟩ := history_split hh
    have hstop : ((w.run K as₁).act K .beginStop).termination = some .stopped := by
      simp only at hn
      simp [act, act?, record, hn]
    rw [run_append]
    exact termination_run hstop as₂

/-- If a watcher that has been stopped has another cause, the stop has found it recorded. -/
theorem exists_later_stop (hs : Sound w) (hw : w.termination = none ∧ w.stops = 0 ∧
    w.stopped = false) {as : List Act} (h : (w.run K as).stops ≠ 0 ∨ (w.run K as).stopped = true)
    {t : Termination} (ht : (w.run K as).termination = some t) (hne : t ≠ .stopped) :
    ∃ m ∈ w.history K as, m.act = .beginStop ∧ m.before.termination = some t := by
  obtain ⟨m, hm, ha⟩ := exists_beginStop hw.2 h
  refine ⟨m, hm, ha, ?_⟩
  cases hn : m.before.termination with
  | none =>
    have hstopped := (stopped_iff_begun_first hs hw.1 as).mpr ⟨m, hm, ha, hn⟩
    exact absurd (Option.some.inj (ht.symm.trans hstopped)) hne
  | some s =>
    obtain ⟨h₁, h₂, hh⟩ := List.append_of_mem hm
    obtain ⟨as₁, as₂, rfl, -, hb, -⟩ := history_split hh
    rw [run_append, ← hb] at ht
    exact (termination_run hn (m.act :: as₂)).symm.trans ht

end Watcher
end ClusterKit
