/-
# Changes on their way

While a watcher works, every change that its source has sent and its consumer
has not read yet is somewhere in it: in the consumer's hand, in the place of
the channel, with the pump, or in the backlog, and these are in order. A move
of anyone else than the source either leaves the sequence of them alone, or
takes its first one out, or ends the work (`Watcher.act_pending`).

Key definitions: `Kind.restored?`, `Watcher.isLive`, `Watcher.pending`, `Watcher.Moves`.
Key theorems: `Watcher.act_pending`, `Watcher.Moves.settle`, `LiveWatcher.pending_receiveAll`.
-/
import ClusterKit.Outcome
import ClusterKit.Proofs.Tracker.Call
import ClusterKit.Proofs.Watch.Move
import ClusterKit.Watch.Live

namespace ClusterKit

/-! ### Changes in items -/

/-- The object that an erased one stands for, if it stands for one. -/
def Kind.restored? (K : Kind α) (o : Erased) : Option α :=
  (K.restore o).toOption

namespace Change

/-- The change of what an object stands for, if it stands for anything. -/
def through (f : α → Option β) : Change α → Option (Change β)
  | .added o => (f o).map .added
  | .modified o => (f o).map .modified
  | .deleted o => (f o).map .deleted

end Change

/-- The change that an event tells of. -/
def WatchEvent.change? : WatchEvent α → Option (Change α)
  | .added o => some (.added o)
  | .modified o => some (.modified o)
  | .deleted o => some (.deleted o)
  | .bookmark _ => none
  | .error _ => none

@[simp] theorem Change.change?_event (c : Change α) : c.event.change? = some c := by
  cases c <;> rfl

/-- The change of the watched type that a raw item tells of. -/
def changeOf (K : Kind α) : RawItem → Option (Change α)
  | .ok e => e.change?.bind (Change.through K.restored?)
  | .error _ => none

section

variable {K : Kind α} {r : ApiResource}

theorem restored?_of_narrow {o : Erased} {a : α} (h : narrow K r o = .ok a) :
    K.restored? o = some a := by
  have hrestored : narrow.restored K o = .ok a → K.restored? o = some a := by
    unfold narrow.restored Kind.restored?
    cases K.restore o with
    | ok b =>
      intro h
      cases h
      rfl
    | error e => exact nofun
  unfold narrow at h
  split at h
  · split at h
    · exact hrestored h
    · cases h
  · exact hrestored h

theorem through_of_narrowed {o : Erased} {change : α → Change α} {c : Change α}
    (h : Forwarded.ofNarrowed change (narrow K r o) = .pass c) :
    (K.restored? o).map change = some c := by
  cases hn : narrow K r o with
  | ok a =>
    rw [hn] at h
    cases h
    rw [restored?_of_narrow hn]
    rfl
  | error t =>
    rw [hn] at h
    cases h

/-- What is passed on is the change that the item tells of. -/
theorem changeOf_of_pass {item : RawItem} {c : Change α}
    (h : Forwarded.ofItem K r item = .pass c) : changeOf K item = some c := by
  match item, h with
  | .ok (.added _), h => exact through_of_narrowed h
  | .ok (.modified _), h => exact through_of_narrowed h
  | .ok (.deleted _), h => exact through_of_narrowed h

/-- What is left out tells of no change. -/
theorem changeOf_of_skip {item : RawItem} (h : Forwarded.ofItem K r item = .skip) :
    changeOf K item = none := by
  have hnarrowed : ∀ (change : α → Change α) (o : Erased),
      Forwarded.ofNarrowed change (narrow K r o) ≠ .skip := by
    intro change o
    cases narrow K r o <;> exact nofun
  match item, h with
  | .ok (.added o), h => exact absurd h (hnarrowed _ o)
  | .ok (.modified o), h => exact absurd h (hnarrowed _ o)
  | .ok (.deleted o), h => exact absurd h (hnarrowed _ o)
  | .ok (.bookmark _), _ => rfl

end

/-! ### Changes in a watcher -/

/-- The change that the consumer has taken and not read yet. -/
def Consumer.held : Consumer α → List (Change α)
  | .holding (some c) => [c]
  | _ => []

/-- The change that the pump waits with. -/
def Pump.offered : Pump α → List (Change α)
  | .offering c => [c]
  | _ => []

namespace Watcher

/-- The watcher works: its source has not ended, and neither has its pump, its
consumer receives, and nobody has stopped it. -/
def isLive (w : Watcher α) : Bool :=
  w.isPumping && w.receiving && !w.ended && !w.stopped

/-- Whether nothing is on its way to the consumer. -/
def isEmpty (w : Watcher α) : Bool :=
  w.consumer.held.isEmpty && w.place.isNone && w.pump.offered.isEmpty && w.backlog.isEmpty

/-- The changes on their way to the consumer, in their order. -/
def pending (K : Kind α) (w : Watcher α) : List (Change α) :=
  w.consumer.held ++ w.place.toList ++ w.pump.offered ++ w.backlog.filterMap (changeOf K)

variable {K : Kind α} {w w' : Watcher α}

theorem pending_of_isEmpty (K : Kind α) (h : w.isEmpty = true) : w.pending K = [] := by
  unfold isEmpty at h
  simp only [Bool.and_eq_true, List.isEmpty_iff, Option.isNone_iff_eq_none] at h
  obtain ⟨⟨⟨hheld, hplace⟩, hoffered⟩, hbacklog⟩ := h
  unfold pending
  rw [hheld, hplace, hoffered, hbacklog]
  rfl

theorem isLive_finish (t : Termination) : (w.finish t).isLive = false := by
  simp [isLive, isPumping, finish]

theorem isLive_discard : w.discard.isLive = false := by
  simp [isLive, discard]

/-- A move by which something is read is not one of the source. -/
theorem not_send_of_read {a : Act} {c : Option (Change α)}
    (h : w.act? K a = some (w', some c)) : ∀ item, a ≠ .send item := by
  rintro item rfl
  cases move_of_act? h

/-- A move of a watcher that still works afterwards has taken out what is read by it,
if anything is read, and has left all else in order. -/
theorem act_pending {a : Act} {out : Option (Option (Change α))}
    (h : w.act? K a = some (w', out)) (ha : ∀ item, a ≠ .send item) (hl : w'.isLive = true) :
    w.isLive = true ∧ w.pending K = out.join.toList ++ w'.pending K := by
  have hends : ∀ t, (w.finish t).isLive ≠ true := fun t => by simp [isLive_finish]
  cases move_of_act? h with
  | send he => exact absurd rfl (ha _)
  | close => simp [isLive] at hl
  | notice hs hp => exact absurd hl (hends _)
  | pass hp hb hf =>
    refine ⟨?_, ?_⟩
    · simpa [isLive, isPumping, hp] using hl
    · simp [pending, hp, hb, Pump.offered, changeOf_of_pass hf]
  | skip hp hb hf =>
    refine ⟨hl, ?_⟩
    simp [pending, hb, changeOf_of_skip hf]
  | meet hp hb hf => simp [isLive_finish] at hl
  | runOut hp hb he => exact absurd hl (hends _)
  | refused hp hr => exact absurd hl (hends _)
  | hand hp hr hc =>
    refine ⟨?_, ?_⟩
    · simpa [isLive, isPumping, hp] using hl
    · simp [pending, hp, hc, Pump.offered]
  | record hp => simp [isLive, isPumping] at hl
  | leave hp => simp [isLive, isPumping] at hl
  | beginStop => exact ⟨hl, rfl⟩
  | endStop hn => simp [isLive] at hl
  | refuseRead hc hs => simp [isLive_discard] at hl
  | beginRead hc hs =>
    refine ⟨hl, ?_⟩
    simp [pending, hc, Consumer.held]
  | receive hc hp =>
    refine ⟨hl, ?_⟩
    simp [pending, hc, hp, Consumer.held]
  | receiveEnd hc hp ho =>
    refine ⟨hl, ?_⟩
    simp [pending, hc, hp, Consumer.held]
  | refuseResult hc hs => simp [isLive_discard] at hl
  | @endRead x hc hs =>
    refine ⟨hl, ?_⟩
    cases x <;> simp [pending, hc, Consumer.held]
  | abandonRead hc =>
    refine ⟨hl, ?_⟩
    simp [pending, hc, Consumer.held]
  | discard hc hs => simp [isLive_discard] at hl

/-! ### Moves of a watcher by itself -/

/-- Nothing is sent to the watcher and nothing read from it, whatever it does. -/
inductive Moves (K : Kind α) (w : Watcher α) : Watcher α → Prop
  | refl : Moves K w w
  | step {v v' : Watcher α} {a : Act} (h : Moves K w v) (ha : ∀ item, a ≠ .send item)
      (hv : v.act? K a = some (v', none)) : Moves K w v'

namespace Moves

theorem trans {w₁ w₂ w₃ : Watcher α} (h : Moves K w₁ w₂) (h' : Moves K w₂ w₃) :
    Moves K w₁ w₃ := by
  induction h' with
  | refl => exact h
  | step _ ha hv ih => exact ih.step ha hv

theorem pending (h : Moves K w w') (hl : w'.isLive = true) :
    w.isLive = true ∧ w.pending K = w'.pending K := by
  induction h with
  | refl => exact ⟨hl, rfl⟩
  | step _ ha hv ih =>
    obtain ⟨hlive, hpending⟩ := act_pending hv ha hl
    obtain ⟨hfirst, hsame⟩ := ih hlive
    exact ⟨hfirst, hsame.trans hpending⟩

theorem pumpStep (h : w.pumpStep? K = some w') : Moves K w w' := by
  obtain ⟨a, ha, hmove⟩ := move_of_pumpStep? h
  refine refl.step ?_ (act?_eq_some_iff.mpr hmove)
  rintro item rfl
  cases ha

/-- A watcher settles by moves of its own. -/
theorem settle (K : Kind α) (w : Watcher α) : Moves K w (w.settle K) :=
  settle_induction (fun hstep h => h.trans (pumpStep hstep)) refl

end Moves

end Watcher

namespace LiveWatcher

variable (K : Kind α)

/-- What a source sends to a watcher that works joins the end. -/
theorem pending_receiveAll (items : List RawItem) : ∀ {w : Watcher α},
    (receiveAll K items w).isLive = true → w.isLive = true ∧
      (receiveAll K items w).pending K = w.pending K ++ items.filterMap (changeOf K) := by
  induction items with
  | nil => exact fun h => ⟨h, by simp [receiveAll]⟩
  | cons item items ih =>
    intro w hl
    have hstep : receiveAll K (item :: items) w = receiveAll K items (w.act K (.send item)) := rfl
    rw [hstep] at hl ⊢
    obtain ⟨hlive, hpending⟩ := ih hl
    rw [hpending]
    by_cases hend : w.ended = true
    · have hsame : w.act K (.send item) = w := by simp [Watcher.act, Watcher.act?, hend]
      rw [hsame] at hlive
      simp [hend, Watcher.isLive] at hlive
    · have hsent : w.act K (.send item) = { w with backlog := w.backlog ++ [item] } := by
        simp [Watcher.act, Watcher.act?, hend]
      rw [hsent] at hlive ⊢
      refine ⟨hlive, ?_⟩
      cases hc : changeOf K item <;> simp [Watcher.pending, hc]

end LiveWatcher
end ClusterKit
