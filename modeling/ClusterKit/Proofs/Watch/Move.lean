/-
# Moves of a watcher

Each move of a watcher is possible in certain states only, and changes a few
parts of it. `Watcher.Move` has one case for each thing that a move can do, with
all that is known of the state in which it does it, so that later proofs go
through these cases and not through the definitions of the moves.

Key definitions: `Watcher.Move`, `Watcher.Act.isPumps`.
Key theorems: `Watcher.act?_eq_some_iff`, `Watcher.move_of_pumpStep?`.
-/
import Mathlib.Tactic.Common
import ClusterKit.Watch.Bridge

namespace ClusterKit
namespace Watcher

/-- Whether the pump makes the move. -/
def Act.isPumps : Act → Bool
  | .notice | .take | .hand | .record | .leave => true
  | _ => false

/-- What a move does to the watcher `w`, and what the consumer reads by it. -/
inductive Move (K : Kind α) (w : Watcher α) :
    Act → Watcher α → Option (Option (Change α)) → Prop
  | send (he : w.ended = false) :
      Move K w (.send item) { w with backlog := w.backlog ++ [item] } none
  | close : Move K w .close { w with ended := true } none
  | notice (hs : w.stopped = true) (hp : w.isPumping = true) :
      Move K w .notice (w.finish .stopped) none
  | pass (hp : w.pump = .taking) (hb : w.backlog = item :: rest)
      (hf : Forwarded.ofItem K w.resource item = .pass c) :
      Move K w .take
        { w with backlog := rest, pulled := w.pulled + 1, pump := .offering c } none
  | skip (hp : w.pump = .taking) (hb : w.backlog = item :: rest)
      (hf : Forwarded.ofItem K w.resource item = .skip) :
      Move K w .take { w with backlog := rest, pulled := w.pulled + 1 } none
  | meet (hp : w.pump = .taking) (hb : w.backlog = item :: rest)
      (hf : Forwarded.ofItem K w.resource item = .finish t) :
      Move K w .take ({ w with backlog := rest, pulled := w.pulled + 1 }.finish t) none
  | runOut (hp : w.pump = .taking) (hb : w.backlog = []) (he : w.ended = true) :
      Move K w .take (w.finish .closed) none
  | refused (hp : w.pump = .offering c) (hr : w.receiving = false) :
      Move K w .hand (w.finish .stopped) none
  | hand (hp : w.pump = .offering c) (hr : w.receiving = true) (hc : w.place = none) :
      Move K w .hand { w with pump := .taking, place := some c } none
  | record (hp : w.pump = .ending t) :
      Move K w .record { w.record t with pump := .leaving } none
  | leave (hp : w.pump = .leaving) : Move K w .leave { w with pump := .finished } none
  | beginStop : Move K w .beginStop { w.record .stopped with stops := w.stops + 1 } none
  | endStop (hn : w.stops ≠ 0) :
      Move K w .endStop { w with stops := w.stops - 1, stopped := true } none
  | refuseRead (hc : w.consumer = .idle) (hs : w.stopped = true) :
      Move K w .beginRead w.discard (some none)
  | beginRead (hc : w.consumer = .idle) (hs : w.stopped = false) :
      Move K w .beginRead { w with consumer := .waiting } none
  | receive (hc : w.consumer = .waiting) (hp : w.place = some c) :
      Move K w .receive { w with consumer := .holding (some c), place := none } none
  | receiveEnd (hc : w.consumer = .waiting) (hp : w.place = none)
      (ho : w.isOpen = false ∨ w.receiving = false) :
      Move K w .receive { w with consumer := .holding none } none
  | refuseResult (hc : w.consumer = .holding x) (hs : w.stopped = true) :
      Move K w .endRead (discard { w with consumer := .idle }) (some none)
  | endRead (hc : w.consumer = .holding x) (hs : w.stopped = false) :
      Move K w .endRead { w with consumer := .idle } (some x)
  | abandonRead (hc : w.consumer = .waiting) :
      Move K w .abandonRead { w with consumer := .idle } none
  | discard (hc : w.consumer = .idle) (hs : w.stopped = true) :
      Move K w .discard w.discard none

variable {K : Kind α} {w w' : Watcher α} {a : Act} {out : Option (Option (Change α))}

theorem take?_eq_some (h : w.take? K = some w') : Move K w .take w' none := by
  unfold take? at h
  split at h
  · rename_i item rest hp hb
    dsimp only at h
    split at h <;> rename_i hf <;> cases h
    · exact .pass hp hb hf
    · exact .skip hp hb hf
    · exact .meet hp hb hf
  · rename_i hp hb
    split at h
    · rename_i he
      cases h
      exact .runOut hp hb he
    · cases h
  · cases h

theorem hand?_eq_some (h : w.hand? = some w') : Move K w .hand w' none := by
  unfold hand? at h
  split at h
  · rename_i c hp
    split at h
    · rename_i hr
      cases h
      exact .refused hp (by simpa using hr)
    · rename_i hr
      split at h
      · rename_i hc
        cases h
        exact .hand hp (by simpa using hr) (Option.isNone_iff_eq_none.mp hc)
      · cases h
  · cases h

theorem recordEnd?_eq_some (h : w.recordEnd? = some w') : Move K w .record w' none := by
  unfold recordEnd? at h
  split at h
  · rename_i t hp
    cases h
    exact .record hp
  · cases h

theorem leave?_eq_some (h : w.leave? = some w') : Move K w .leave w' none := by
  unfold leave? at h
  split at h
  · rename_i hp
    cases h
    exact .leave hp
  · cases h

theorem receive?_eq_some (h : w.receive? = some w') : Move K w .receive w' none := by
  unfold receive? at h
  split at h
  · rename_i c hc hp
    cases h
    exact .receive hc hp
  · rename_i hc hp
    split at h
    · cases h
    · rename_i ho
      cases h
      refine .receiveEnd hc hp ?_
      simpa [-not_and, Classical.not_and_iff_not_or_not] using ho
  · cases h

theorem send_eq_some {item : RawItem} (h : w.act? K (.send item) = some (w', out)) :
    Move K w (.send item) w' out := by
  simp only [act?] at h
  split at h
  · cases h
  · rename_i he
    cases h
    exact .send (by simpa using he)

theorem notice_eq_some (h : w.act? K .notice = some (w', out)) : Move K w .notice w' out := by
  simp only [act?] at h
  split at h
  · rename_i hs
    cases h
    rw [Bool.and_eq_true] at hs
    exact .notice hs.1 hs.2
  · cases h

theorem endStop_eq_some (h : w.act? K .endStop = some (w', out)) : Move K w .endStop w' out := by
  simp only [act?] at h
  split at h
  · cases h
  · rename_i hn
    cases h
    exact .endStop hn

theorem beginRead_eq_some (h : w.act? K .beginRead = some (w', out)) :
    Move K w .beginRead w' out := by
  simp only [act?] at h
  split at h
  · rename_i hc
    split at h
    · rename_i hs
      cases h
      exact .refuseRead hc hs
    · rename_i hs
      cases h
      exact .beginRead hc (by simpa using hs)
  · cases h

theorem endRead_eq_some (h : w.act? K .endRead = some (w', out)) : Move K w .endRead w' out := by
  simp only [act?] at h
  split at h
  · rename_i x hc
    split at h
    · rename_i hs
      cases h
      exact .refuseResult hc hs
    · rename_i hs
      cases h
      exact .endRead hc (by simpa using hs)
  · cases h

theorem abandonRead_eq_some (h : w.act? K .abandonRead = some (w', out)) :
    Move K w .abandonRead w' out := by
  simp only [act?] at h
  split at h
  · rename_i hc
    cases h
    exact .abandonRead hc
  · cases h

theorem discard_eq_some (h : w.act? K .discard = some (w', out)) : Move K w .discard w' out := by
  simp only [act?] at h
  split at h
  · rename_i hc
    split at h
    · rename_i hs
      cases h
      exact .discard hc hs
    · cases h
  · cases h

/-- Where the consumer reads nothing by a move, all that counts is the watcher after it. -/
theorem move_of_map {v? : Option (Watcher α)} (hv : ∀ {v}, v? = some v → Move K w a v none)
    (h : v?.map (·, none) = some (w', out)) : Move K w a w' out := by
  obtain ⟨v, he, hp⟩ := Option.map_eq_some_iff.mp h
  cases hp
  exact hv he

/-- A possible move is one of the cases. -/
theorem move_of_act? (h : w.act? K a = some (w', out)) : Move K w a w' out := by
  cases a with
  | send item => exact send_eq_some h
  | close =>
    cases h
    exact .close
  | notice => exact notice_eq_some h
  | take => exact move_of_map take?_eq_some h
  | hand => exact move_of_map hand?_eq_some h
  | record => exact move_of_map recordEnd?_eq_some h
  | leave => exact move_of_map leave?_eq_some h
  | beginStop =>
    cases h
    exact .beginStop
  | endStop => exact endStop_eq_some h
  | beginRead => exact beginRead_eq_some h
  | receive => exact move_of_map receive?_eq_some h
  | endRead => exact endRead_eq_some h
  | abandonRead => exact abandonRead_eq_some h
  | discard => exact discard_eq_some h

/-- A move is possible just if it is one of the cases. -/
theorem act?_eq_some_iff : w.act? K a = some (w', out) ↔ Move K w a w' out := by
  constructor
  · exact move_of_act?
  · intro h
    cases h with
    | receiveEnd hc hp ho => rcases ho with ho | ho <;> simp [act?, receive?, hc, hp, ho]
    | _ => simp_all [act?, take?, hand?, recordEnd?, leave?, receive?]

/-- The pump makes a move of its own. -/
theorem move_of_pumpStep? (h : w.pumpStep? K = some w') :
    ∃ a : Act, a.isPumps = true ∧ Move K w a w' none := by
  unfold pumpStep? at h
  split at h
  · rename_i hs
    cases h
    rw [Bool.and_eq_true] at hs
    exact ⟨.notice, rfl, .notice hs.1 hs.2⟩
  · simp only [Option.or_eq_some_iff] at h
    rcases h with h | ⟨-, h | ⟨-, h | ⟨-, h⟩⟩⟩
    · exact ⟨.take, rfl, take?_eq_some h⟩
    · exact ⟨.hand, rfl, hand?_eq_some h⟩
    · exact ⟨.record, rfl, recordEnd?_eq_some h⟩
    · exact ⟨.leave, rfl, leave?_eq_some h⟩

/-- What each move of the pump keeps, settling keeps. -/
theorem settle_induction {P : Watcher α → Prop}
    (hstep : ∀ {v v' : Watcher α}, v.pumpStep? K = some v' → P v → P v') (h : P w) :
    P (w.settle K) := by
  have hpump : ∀ n (v : Watcher α), P v → P (pumpFor K n v) := by
    intro n
    induction n with
    | zero => exact fun _ hv => hv
    | succ n ih =>
      intro v hv
      unfold pumpFor
      split
      · rename_i v' hv'
        exact ih v' (hstep hv' hv)
      · exact hv
  exact hpump _ w h

end Watcher
end ClusterKit
