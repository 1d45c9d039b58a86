/-
# Runs of a watcher

A run is any sequence of moves, of the source, the pump, the consumer and
whoever stops, in whatever order; a move that is not possible does nothing. Its
history has every move with the watcher that it meets. Two moves write a cause
of the end, the beginning of a stop and the record of the pump, and only the
first of them does: the cause does not change any more after that.

Key definitions: `Watcher.run`, `Watcher.history`, `Watcher.changesRead`, `Watcher.sent`.
Key theorems: `Watcher.history_split`, `Watcher.Move.termination_cases`,
`Watcher.termination_run`.
-/
import Mathlib.Data.List.Induction
import ClusterKit.Proofs.Watch.Move

namespace ClusterKit
namespace Watcher

/-! ### Runs -/

/-- The item that the source sends by a move. -/
def Act.item? : Act → Option RawItem
  | .send item => some item
  | _ => none

/-- The watcher after a run of moves. -/
def run (K : Kind α) (w : Watcher α) (as : List Act) : Watcher α :=
  as.foldl (fun w a => w.act K a) w

/-- A move of a run, with the watcher that it meets. -/
structure Moment (α : Type u) where
  before : Watcher α
  act : Act

namespace Moment

variable (K : Kind α) (m : Moment α)

/-- The watcher after the move. -/
def after : Watcher α :=
  m.before.act K m.act

/-- Whether the move is possible. -/
def isMade : Bool :=
  (m.before.act? K m.act).isSome

/-- What the consumer reads by the move: nothing, the end, or a change. -/
def read? : Option (Option (Change α)) :=
  (m.before.act? K m.act).bind (·.2)

/-- Whether the move writes the cause of the end. -/
def isWrite : Bool :=
  (m.after K).termination ≠ m.before.termination

/-- The item that the source sends by the move. -/
def item? : Option RawItem :=
  if m.isMade K then m.act.item? else none

end Moment

/-- The moves of a run, each with the watcher that it meets. -/
def history (K : Kind α) : Watcher α → List Act → List (Moment α)
  | _, [] => []
  | w, a :: as => ⟨w, a⟩ :: history K (w.act K a) as

/-- The changes that the consumer reads in a run. -/
def changesRead (K : Kind α) (w : Watcher α) (as : List Act) : List (Change α) :=
  (w.history K as).filterMap fun m => (m.read? K).join

/-- The items that the source sends in a run. -/
def sent (K : Kind α) (w : Watcher α) (as : List Act) : List RawItem :=
  (w.history K as).filterMap (·.item? K)

variable {K : Kind α} {w w' : Watcher α} {a : Act} {out : Option (Option (Change α))}

@[simp] theorem run_nil (w : Watcher α) : w.run K [] = w := rfl

@[simp] theorem run_cons (w : Watcher α) (a : Act) (as : List Act) :
    w.run K (a :: as) = (w.act K a).run K as := rfl

@[simp] theorem history_nil (w : Watcher α) : w.history K [] = [] := rfl

@[simp] theorem history_cons (w : Watcher α) (a : Act) (as : List Act) :
    w.history K (a :: as) = ⟨w, a⟩ :: (w.act K a).history K as := rfl

theorem run_append (w : Watcher α) (as bs : List Act) :
    w.run K (as ++ bs) = (w.run K as).run K bs :=
  List.foldl_append

theorem history_append (as bs : List Act) : ∀ w : Watcher α,
    w.history K (as ++ bs) = w.history K as ++ (w.run K as).history K bs := by
  induction as with
  | nil => intro w; rfl
  | cons a as ih => intro w; simp [ih]

@[simp] theorem map_act_history (as : List Act) : ∀ w : Watcher α,
    (w.history K as).map (·.act) = as := by
  induction as with
  | nil => intro w; rfl
  | cons a as ih => intro w; simp [ih]

theorem changesRead_append (w : Watcher α) (as bs : List Act) :
    w.changesRead K (as ++ bs) = w.changesRead K as ++ (w.run K as).changesRead K bs := by
  unfold changesRead
  rw [history_append, List.filterMap_append]

theorem sent_append (w : Watcher α) (as bs : List Act) :
    w.sent K (as ++ bs) = w.sent K as ++ (w.run K as).sent K bs := by
  unfold sent
  rw [history_append, List.filterMap_append]

theorem changesRead_singleton (K : Kind α) (w : Watcher α) (a : Act) :
    w.changesRead K [a] = ((Moment.mk w a).read? K).join.toList := by
  unfold changesRead
  cases h : ((Moment.mk w a).read? K).join <;> simp [h]

theorem sent_singleton (K : Kind α) (w : Watcher α) (a : Act) :
    w.sent K [a] = ((Moment.mk w a).item? K).toList := by
  unfold sent
  cases h : (Moment.mk w a).item? K <;> simp [h]

/-- A moment of a history is met after the moves before it. -/
theorem history_split {h h' : List (Moment α)} {m : Moment α} : ∀ {w : Watcher α} {as : List Act},
    w.history K as = h ++ m :: h' → ∃ as₁ as₂, as = as₁ ++ m.act :: as₂ ∧
      h = w.history K as₁ ∧ m.before = w.run K as₁ ∧ h' = (m.after K).history K as₂ := by
  induction h with
  | nil =>
    intro w as hh
    cases as with
    | nil => cases hh
    | cons a as =>
      cases hh
      exact ⟨[], as, rfl, rfl, rfl, rfl⟩
  | cons d h ih =>
    intro w as hh
    cases as with
    | nil => cases hh
    | cons a as =>
      simp only [history_cons, List.cons_append, List.cons.injEq] at hh
      obtain ⟨rfl, hh⟩ := hh
      obtain ⟨as₁, as₂, rfl, rfl, hb, rfl⟩ := ih hh
      exact ⟨a :: as₁, as₂, rfl, rfl, hb, rfl⟩

/-- A move is one of the cases, or does nothing. -/
theorem Moment.still_or_moves (K : Kind α) (m : Moment α) :
    (m.isMade K = false ∧ m.after K = m.before ∧ m.read? K = none) ∨
      m.isMade K = true ∧ Move K m.before m.act (m.after K) (m.read? K) := by
  unfold isMade after read? Watcher.act
  cases h : m.before.act? K m.act with
  | none => exact .inl ⟨rfl, rfl, rfl⟩
  | some p => exact .inr ⟨rfl, move_of_act? h⟩

/-! ### What holds along a run -/

/-- What each move keeps, a run keeps. -/
theorem run_induction {P : Watcher α → Prop}
    (hstep : ∀ {w a w' out}, Move K w a w' out → P w → P w') (as : List Act) :
    ∀ {w : Watcher α}, P w → P (w.run K as) := by
  induction as with
  | nil => exact id
  | cons a as ih =>
    intro w hw
    apply ih
    rcases Moment.still_or_moves K ⟨w, a⟩ with ⟨-, hstill, -⟩ | ⟨-, hmove⟩
    · exact (congrArg P hstill).mpr hw
    · exact hstep hmove hw

/-- So it holds at each moment of its history. -/
theorem history_induction {P : Watcher α → Prop}
    (hstep : ∀ {w a w' out}, Move K w a w' out → P w → P w') {as : List Act} (hw : P w)
    {m : Moment α} (hm : m ∈ w.history K as) : P m.before := by
  obtain ⟨h, h', hh⟩ := List.append_of_mem hm
  obtain ⟨as₁, -, -, -, hb, -⟩ := history_split hh
  exact hb ▸ run_induction hstep as₁ hw

/-- What comes to hold in a run comes to hold by one of its moves. -/
theorem exists_origin {P : Watcher α → Prop} (as : List Act) : ∀ {w : Watcher α}, ¬ P w →
    P (w.run K as) → ∃ m ∈ w.history K as, ¬ P m.before ∧ P (m.after K) ∧
      Move K m.before m.act (m.after K) (m.read? K) := by
  induction as with
  | nil => exact fun hn h => absurd h hn
  | cons a as ih =>
    intro w hn h
    by_cases hw : P (w.act K a)
    · refine ⟨⟨w, a⟩, List.mem_cons_self, hn, hw, ?_⟩
      rcases Moment.still_or_moves K ⟨w, a⟩ with ⟨-, hstill, -⟩ | ⟨-, hmove⟩
      · exact absurd ((congrArg P hstill).mp hw) hn
      · exact hmove
    · obtain ⟨m, hm, hrest⟩ := ih hw h
      exact ⟨m, List.mem_cons_of_mem _ hm, hrest⟩

namespace Move

/-- A move leaves the cause of the end as it is, or writes the first one: a stop begins,
or the pump records what it has found. -/
theorem termination_cases (h : Move K w a w' out) : w'.termination = w.termination ∨
    w.termination = none ∧ (a = .beginStop ∧ w'.termination = some .stopped ∨
      ∃ t, a = .record ∧ w.pump = .ending t ∧ w'.termination = some t) := by
  cases h with
  | record hp => cases ht : w.termination <;> simp [Watcher.record, ht, hp]
  | beginStop => cases ht : w.termination <;> simp [Watcher.record, ht]
  | _ => exact .inl rfl

/-- A cause of the end stays. -/
theorem termination_eq {t : Termination} (h : Move K w a w' out)
    (ht : w.termination = some t) : w'.termination = some t := by
  rcases h.termination_cases with he | ⟨hn, -⟩
  · exact he.trans ht
  · cases ht.symm.trans hn

/-- A watcher that has been stopped stays so. -/
theorem stopped_eq (h : Move K w a w' out) (hs : w.stopped = true) : w'.stopped = true := by
  cases h with
  | endStop hn => rfl
  | _ => exact hs

/-- A stop that is under way, or has marked the watcher, was so before or begins now. -/
theorem stop_cases (h : Move K w a w' out) (hs : w'.stops ≠ 0 ∨ w'.stopped = true) :
    (w.stops ≠ 0 ∨ w.stopped = true) ∨ a = .beginStop := by
  cases h with
  | beginStop => exact .inr rfl
  | endStop hn => exact .inl (.inl hn)
  | _ => exact .inl hs

/-- Only the first and the last move of a read tell the consumer something. -/
theorem act_of_read {x : Option (Change α)} (h : Move K w a w' (some x)) :
    a = .beginRead ∨ a = .endRead := by
  cases h with
  | refuseRead => exact .inl rfl
  | refuseResult => exact .inr rfl
  | endRead => exact .inr rfl

theorem stopped_of_endStop (h : Move K w .endStop w' out) : w'.stopped = true := by
  cases h
  rfl

/-- A read finds the end at once if the watcher has been stopped. -/
theorem beginRead_of_stopped (h : Move K w .beginRead w' out) (hs : w.stopped = true) :
    out = some none := by
  cases h with
  | refuseRead hc hs => rfl
  | beginRead hc hn => cases hs.symm.trans hn

/-- Whoever reads from a watcher that has been stopped reads the end. -/
theorem read_of_stopped (h : Move K w a w' out) (hs : w.stopped = true) (c : Change α) :
    out ≠ some (some c) := by
  cases h with
  | endRead hc hn => cases hs.symm.trans hn
  | _ => exact nofun

theorem resource_eq (h : Move K w a w' out) : w'.resource = w.resource := by
  cases h <;> rfl

end Move

/-- A stop that returns has marked the watcher. -/
theorem Moment.stopped_after {m : Moment α} (ha : m.act = .endStop) (hm : m.isMade K = true) :
    (m.after K).stopped = true := by
  rcases m.still_or_moves K with ⟨hn, -⟩ | ⟨-, hmove⟩
  · cases hm.symm.trans hn
  · rw [ha] at hmove
    exact hmove.stopped_of_endStop

theorem resource_run (w : Watcher α) (as : List Act) : (w.run K as).resource = w.resource :=
  run_induction (P := fun v => v.resource = w.resource) (fun h hv => h.resource_eq.trans hv) as rfl

theorem termination_run {t : Termination} (ht : w.termination = some t) (as : List Act) :
    (w.run K as).termination = some t :=
  run_induction (P := fun w => w.termination = some t) Move.termination_eq as ht

/-- Nothing is written once there is a cause. -/
theorem isWrite_of_termination {t : Termination} (ht : w.termination = some t) {as : List Act}
    {m : Moment α} (hm : m ∈ w.history K as) : m.isWrite K = false := by
  have hbefore : m.before.termination = some t :=
    history_induction (P := fun w => w.termination = some t) Move.termination_eq ht hm
  rw [Moment.isWrite, hbefore, show (m.after K).termination = some t from
    termination_run hbefore [m.act]]
  simp

/-- The cause of the end is written once at most. -/
theorem countP_isWrite_le (as : List Act) : ∀ w : Watcher α,
    (w.history K as).countP (·.isWrite K) ≤ 1 := by
  induction as with
  | nil => exact fun _ => Nat.zero_le _
  | cons a as ih =>
    intro w
    rw [history_cons, List.countP_cons]
    cases ht : (w.act K a).termination with
    | none =>
      have hkept : w.termination = none := by
        cases hw : w.termination with
        | none => rfl
        | some t => exact nomatch ht.symm.trans (termination_run hw [a])
      rw [if_neg (by simp [Moment.isWrite, Moment.after, ht, hkept])]
      exact ih _
    | some t =>
      have hrest : ((w.act K a).history K as).countP (·.isWrite K) = 0 :=
        List.countP_eq_zero.mpr fun m hm => by simp [isWrite_of_termination ht hm]
      rw [hrest]
      split <;> omega

end Watcher
end ClusterKit
