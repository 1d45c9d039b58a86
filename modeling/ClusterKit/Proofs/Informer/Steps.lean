/-
# Steps of the sync loop

A running informer gets ahead by steps, whatever backend answers its calls: it
opens a watch, lists, reads the watch, tries again after its rest, or stops, while
time passes and the backend changes by itself. However far it runs at once, it
gets there by these steps (`Running.Steps.settle`).

A backend can note what it is asked for and what it answers. That changes
nothing in what the informer does (`Running.Steps.noted`), and the notes tell the
calls that were really made.

Key definitions: `Running.Step`, `Running.Steps`, `Met`, `ListWatch.noted`.
Key theorems: `Running.Steps.advance`, `Running.Steps.awaitSync`, `Running.Steps.noted`.
-/
import Mathlib.Logic.Relation
import Mathlib.Tactic.Common
import ClusterKit.Informer.Loop

namespace ClusterKit

variable {σ α ω : Type}

namespace Running

section

variable (K : Kind α) (L : ListWatch σ α ω) (cfg : Config) (others : σ → σ → Prop)

/-- What may happen next to an informer on a backend: something that `others` do to the
backend, the passing of time, a call for an end, and the steps of its loop. -/
inductive Step : Running α ω × σ → Running α ω × σ → Prop
  | others (h : others s s') : Step (r, s) (r, s')
  | pass (t : Span) : Step (r, s) ({ r with clock := t }, s)
  | callOff : Step (r, s) ({ r with cancelled := true }, s)
  | cancel : Step (r, s) (r.act K L cfg .cancel s)
  | openWatch : Step (r, s) (r.openWatch K L cfg s)
  | makeList : Step (r, s) (r.makeList K L cfg s)
  | pump : Step (r, s) (r.pump L s)
  | receive (h : r.receive? K L cfg s = some x) : Step (r, s) x
  | retry (h : r.restsUntil r.clock = true) : Step (r, s) (r.act K L cfg .rested s)

/-- Any number of steps. -/
abbrev Steps : Running α ω × σ → Running α ω × σ → Prop :=
  Relation.ReflTransGen (Step K L cfg others)

end

namespace Steps

variable {K : Kind α} {L : ListWatch σ α ω} {cfg : Config} {others : σ → σ → Prop}
  {x : Running α ω × σ} {r : Running α ω} {s : σ}

theorem obey (h : Steps K L cfg others x (r, s)) :
    Steps K L cfg others x (r.obey K L cfg s) := by
  unfold Running.obey
  split
  · exact h.tail .cancel
  · exact h

theorem receiveFor (n : Nat) : ∀ {r : Running α ω} {s : σ}, Steps K L cfg others x (r, s) →
    Steps K L cfg others x (r.receiveFor K L cfg n s) := by
  induction n with
  | zero => exact fun h => h
  | succ n ih =>
    intro r s h
    unfold Running.receiveFor
    split
    · rename_i r' s' hread
      exact ih (h.tail (.receive hread))
    · exact h

theorem follow (h : Steps K L cfg others x (r, s)) :
    Steps K L cfg others x (r.follow K L cfg s) := by
  unfold Running.follow
  dsimp only
  exact (receiveFor _ (h.tail .pump)).tail .pump

theorem advanceRound (h : Steps K L cfg others x (r, s)) :
    Steps K L cfg others x (r.advanceRound K L cfg s) :=
  follow ((h.obey.tail .openWatch).tail .makeList)

theorem settleFor (n : Nat) : ∀ {r : Running α ω} {s : σ}, Steps K L cfg others x (r, s) →
    Steps K L cfg others x (r.settleFor K L cfg n s) := by
  induction n with
  | zero => exact fun h => h.advanceRound
  | succ n ih =>
    intro r s h
    unfold Running.settleFor
    dsimp only
    split
    · rename_i hrest
      exact ih (h.advanceRound.tail (.retry hrest))
    · exact h.advanceRound

/-- An informer that runs as far as it can gets there by steps. -/
theorem settle (h : Steps K L cfg others x (r, s)) :
    Steps K L cfg others x (r.settle K L cfg s) :=
  settleFor _ h

theorem advanceFor (t : Span) (n : Nat) : ∀ {r : Running α ω} {s : σ},
    Steps K L cfg others x (r, s) →
    Steps K L cfg others x (r.advanceFor K L cfg t n s) := by
  induction n with
  | zero => exact fun h => settle (h.tail (.pass t))
  | succ n ih =>
    intro r s h
    unfold Running.advanceFor
    dsimp only
    split
    · exact ih (h.settle.tail (.pass _))
    · exact settle (h.settle.tail (.pass t))

/-- An informer that time passes for gets where it gets by steps. -/
theorem advance (h : Steps K L cfg others x (r, s)) (d : Span) :
    Steps K L cfg others x (r.advance K L cfg d s) :=
  advanceFor _ _ h

theorem awaitSyncFor (t : Span) (n : Nat) : ∀ {r : Running α ω} {s : σ},
    Steps K L cfg others x (r, s) →
    Steps K L cfg others x (r.awaitSyncFor K L cfg t n s).2 := by
  induction n with
  | zero => exact fun h => h.tail (.pass t)
  | succ n ih =>
    intro r s h
    unfold Running.awaitSyncFor
    dsimp only
    split
    · exact h.settle
    · split
      · exact ih (h.settle.tail (.pass _))
      · exact h.settle.tail (.pass t)

/-- An informer whose first list is awaited gets where it gets by steps. -/
theorem awaitSync (h : Steps K L cfg others x (r, s)) (d : Span) :
    Steps K L cfg others x (r.awaitSync K L cfg d s).2 := by
  unfold Running.awaitSync
  split
  · exact h
  · split
    · exact h
    · exact awaitSyncFor _ _ h

end Steps
end Running

/-! ### Noting -/

/-- What an informer meets: how its calls to watch and to list come to an end, a change that it
reads, and the end of its watch. -/
inductive Met (α ω : Type)
  | watched (x : Completion ω)
  | listed (x : Completion (ObjectList α))
  | read (c : Change α)
  | ended (t : Option Termination)

namespace Met

/-- Where an informer stands in its round when it meets this. -/
def phase : Met α ω → Phase
  | .watched _ => .opening
  | .listed _ => .listing
  | .read _ => .following
  | .ended _ => .following

/-- What happens to an informer that meets this. -/
def act : Met α ω → Informer.Act α
  | .watched (.done (.ok _)) => .opened (.ok ())
  | .watched (.done (.error e)) => .opened (.error e)
  | .watched .never => .stall
  | .watched .panic => .cancel
  | .listed (.done x) => .listed x
  | .listed .never => .stall
  | .listed .panic => .cancel
  | .read c => .received c
  | .ended t => .ended t

/-- What others do to a backend that notes: what they do to the backend. -/
def Beside (others : σ → σ → Prop) (s t : σ × List (Met α ω)) : Prop :=
  others s.1 t.1 ∧ t.2 = s.2

end Met

/-- The backend that notes whatever is met with it. -/
def ListWatch.noted (L : ListWatch σ α ω) : ListWatch (σ × List (Met α ω)) α ω where
  list p s :=
    let x := L.list p s.1
    (x.1, x.2, s.2 ++ [.listed x.1])
  watch p s :=
    let x := L.watch p s.1
    (x.1, x.2, s.2 ++ [.watched x.1])
  pump w s :=
    let x := L.pump w s.1
    (x.1, x.2, s.2)
  ready w s := L.ready w s.1
  read w s :=
    match L.read w s.1 with
    | (.change c, w, t) => (.change c, w, t, s.2 ++ [.read c])
    | (.ended, w, t) => (.ended, w, t, s.2 ++ [.ended (L.termination w t)])
    | (.pending, w, t) => (.pending, w, t, s.2)
  termination w s := L.termination w s.1
  release w s := (L.release w s.1, s.2)

namespace Running

variable (K : Kind α) (L : ListWatch σ α ω) (cfg : Config) {others : σ → σ → Prop}
  (r : Running α ω) (s : σ) (log : List (Met α ω))

@[simp] theorem informer_act (a : Informer.Act α) :
    (r.act K L cfg a s).1.informer = r.informer.act K a := by
  unfold act
  dsimp only
  split <;> rfl

theorem act_noted (a : Informer.Act α) : r.act K L.noted cfg a (s, log) =
    ((r.act K L cfg a s).1, (r.act K L cfg a s).2, log) := by
  have hleave : ∀ i, act.leave L.noted cfg r (s, log) i =
      ((act.leave L cfg r s i).1, (act.leave L cfg r s i).2, log) := by
    intro i
    unfold act.leave
    cases r.watch <;> rfl
  unfold act
  dsimp only
  split
  · exact hleave _
  · exact hleave _
  · rfl

/-- What is met by opening a watch. -/
def watched? : Option (Met α ω) :=
  if r.informer.phase = .opening then some (.watched (L.watch cfg.params s).1) else none

/-- What is met by making a list. -/
def listed? : Option (Met α ω) :=
  if r.informer.phase = .listing then some (.listed (L.list cfg.params s).1) else none

/-- What is met by a look at the watch. -/
def heard? : Option (Met α ω) :=
  match r.informer.phase, r.watch with
  | .following, some w =>
    match L.read w s with
    | (.change c, _, _) => some (.read c)
    | (.ended, w, s) => some (.ended (L.termination w s))
    | (.pending, _, _) => none
  | _, _ => none

theorem openWatch_noted : r.openWatch K L.noted cfg (s, log) =
    ((r.openWatch K L cfg s).1, (r.openWatch K L cfg s).2,
      log ++ (r.watched? L cfg s).toList) := by
  unfold openWatch watched?
  cases r.informer.phase <;> try exact congrArg (r, s, ·) (List.append_nil log).symm
  dsimp only [ListWatch.noted]
  cases L.watch cfg.params s with
  | mk x s' =>
    cases x with
    | done e => cases e <;> exact act_noted K L cfg _ _ _ _
    | never => exact act_noted K L cfg _ _ _ _
    | panic => exact act_noted K L cfg _ _ _ _

theorem informer_openWatch : (r.openWatch K L cfg s).1.informer =
    ((r.watched? L cfg s).map (r.informer.act K ·.act)).getD r.informer := by
  unfold openWatch watched?
  cases hp : r.informer.phase <;> try rfl
  dsimp only
  cases L.watch cfg.params s with
  | mk x s' =>
    cases x with
    | done e => cases e <;> exact informer_act K L cfg _ _ _
    | never => exact informer_act K L cfg _ _ _
    | panic => exact informer_act K L cfg _ _ _

theorem makeList_noted : r.makeList K L.noted cfg (s, log) =
    ((r.makeList K L cfg s).1, (r.makeList K L cfg s).2,
      log ++ (r.listed? L cfg s).toList) := by
  unfold makeList listed?
  cases r.informer.phase <;> try exact congrArg (r, s, ·) (List.append_nil log).symm
  dsimp only [ListWatch.noted]
  cases L.list cfg.params s with
  | mk x s' => cases x <;> exact act_noted K L cfg _ _ _ _

theorem informer_makeList : (r.makeList K L cfg s).1.informer =
    ((r.listed? L cfg s).map (r.informer.act K ·.act)).getD r.informer := by
  unfold makeList listed?
  cases hp : r.informer.phase <;> try rfl
  dsimp only
  cases L.list cfg.params s with
  | mk x s' => cases x <;> exact informer_act K L cfg _ _ _

theorem pump_noted : r.pump L.noted (s, log) = ((r.pump L s).1, (r.pump L s).2, log) := by
  unfold pump
  cases r.watch <;> rfl

theorem informer_pump : (r.pump L s).1.informer = r.informer := by
  unfold pump
  cases r.watch <;> rfl

theorem receive?_noted : r.receive? K L.noted cfg (s, log) =
    (r.receive? K L cfg s).map fun x => (x.1, x.2, log ++ (r.heard? L s).toList) := by
  unfold receive? heard?
  cases r.informer.phase <;> try rfl
  cases r.watch with
  | none => rfl
  | some w =>
    dsimp only [ListWatch.noted]
    cases L.read w s with
    | mk look rest =>
      cases look with
      | change c => exact congrArg some (act_noted K L cfg _ _ _ _)
      | ended => exact congrArg some (act_noted K L cfg _ _ _ _)
      | pending => rfl

theorem informer_receive? {x : Running α ω × σ} (h : r.receive? K L cfg s = some x) :
    x.1.informer = ((r.heard? L s).map (r.informer.act K ·.act)).getD r.informer := by
  unfold receive? at h
  unfold heard?
  cases hp : r.informer.phase <;> simp only [hp] at h <;> try cases h
  cases hw : r.watch with
  | none => simp [hw] at h
  | some w =>
    rw [hw] at h
    dsimp only at h ⊢
    cases hread : L.read w s with
    | mk look rest =>
      rw [hread] at h
      cases look with
      | change c =>
        cases h
        exact informer_act K L cfg _ _ _
      | ended =>
        cases h
        exact informer_act K L cfg _ _ _
      | pending => cases h

variable {K L cfg r s log}

/-- A step on a backend is a step on the one that notes. -/
theorem Step.noted {x y : Running α ω × σ} (h : Step K L cfg others x y) (log : List (Met α ω)) :
    ∃ log', Step K L.noted cfg (Met.Beside others) (x.1, x.2, log) (y.1, y.2, log') := by
  have hby : ∀ {z z' : Running α ω × σ × List (Met α ω)}, z' = z →
      Step K L.noted cfg (Met.Beside others) (x.1, x.2, log) z' →
      Step K L.noted cfg (Met.Beside others) (x.1, x.2, log) z := fun h hs => h ▸ hs
  cases h with
  | others h => exact ⟨log, .others ⟨h, rfl⟩⟩
  | pass t => exact ⟨log, .pass t⟩
  | callOff => exact ⟨log, .callOff⟩
  | @cancel r s => exact ⟨log, hby (act_noted K L cfg r s log _) .cancel⟩
  | @openWatch r s => exact ⟨_, hby (openWatch_noted K L cfg r s log) .openWatch⟩
  | @makeList r s => exact ⟨_, hby (makeList_noted K L cfg r s log) .makeList⟩
  | @pump r s => exact ⟨log, hby (pump_noted L r s log) .pump⟩
  | @receive _ r s h =>
    refine ⟨log ++ (r.heard? L s).toList, .receive ?_⟩
    rw [receive?_noted, h]
    rfl
  | @retry r s h => exact ⟨log, hby (act_noted K L cfg r s log _) (.retry h)⟩

/-- An informer does the same on a backend that notes. -/
theorem Steps.noted {x y : Running α ω × σ} (h : Steps K L cfg others x y)
    (log : List (Met α ω)) :
    ∃ log', Steps K L.noted cfg (Met.Beside others) (x.1, x.2, log) (y.1, y.2, log') := by
  induction h with
  | refl => exact ⟨log, .refl⟩
  | tail _ hs ih =>
    obtain ⟨log', hx⟩ := ih
    obtain ⟨log'', hy⟩ := hs.noted log'
    exact ⟨log'', hx.tail hy⟩

end Running
end ClusterKit
