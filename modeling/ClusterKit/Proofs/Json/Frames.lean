/-
# Open lists and objects

What is open when a text ends stays open until a mark closes it. So a whole text whose
value is closed has been cut in front of that mark, no token of it is fatal, and its
draft goes on from the lists and objects that were open at any place of it.

Key definitions: `Draft.Closed`, `Document.Holds`, `Document.State.Lost`,
`Document.State.Allows`.
Key theorems: `Document.State.not_closed_of_not_mark`, `Document.State.alive_of_closed`,
`Document.State.allows_of_run`.
-/
import ClusterKit.Json.Draft
import ClusterKit.Proofs.Json.Scan

namespace ClusterKit
namespace Json

/-- A list or object with its closing mark. -/
def Draft.Closed : Draft → Prop
  | .list _ _ close => close = none
  | .fields _ _ close => close = none
  | _ => False

namespace Document

/-! ### Frames of a whole draft -/

namespace Frame

/-- The draft goes on from the frame, or ends with it. -/
def Extends : Frame → Draft → Prop
  | .list deep items, d => ∃ ds close, d = .list deep (items.reverse ++ ds) close
  | .fields deep ms _, d => ∃ ns close, d = .fields deep (ms.reverse ++ ns) close

/-- The draft goes on from the frame, an object with at least one more member. -/
def Grows : Frame → Draft → Prop
  | .list deep items, d => Extends (.list deep items) d
  | .fields deep ms _, d => ∃ k y ns close, d = .fields deep (ms.reverse ++ (k, y) :: ns) close

theorem extends_shut (close : Option ReadError) (f : Frame) : f.Extends (State.shut close f) := by
  cases f with
  | list deep items => exact ⟨[], close, by rw [List.append_nil]; rfl⟩
  | fields deep ms k => exact ⟨[], close, by rw [List.append_nil]; rfl⟩

theorem Grows.extends {f : Frame} {x : Draft} (h : f.Grows x) : f.Extends x := by
  cases f with
  | list deep items => exact h
  | fields deep ms k =>
    obtain ⟨l, y, ns, close, rfl⟩ := h
    exact ⟨_, close, rfl⟩

theorem extends_of_fill {f : Frame} {x y : Draft} (h : (State.fill y f).Extends x) :
    f.Extends x := by
  cases f with
  | list deep items =>
    obtain ⟨ds, close, rfl⟩ := h
    exact ⟨y :: ds, close, by simp⟩
  | fields deep ms k =>
    cases k with
    | none => exact h
    | some k =>
      obtain ⟨ns, close, rfl⟩ := h
      exact ⟨(k, y) :: ns, close, by simp⟩

end Frame

/-- The draft has the frames from the outermost to the innermost, and `P` holds of what stands
in the innermost next. -/
def Holds (P : Draft → Prop) : List Frame → Draft → Prop
  | [], d => P d
  | f :: fs, d => Holds (fun x => ∃ y, P y ∧ (State.fill y f).Extends x) fs d

theorem Holds.mono {fs : List Frame} {d : Draft} {P Q : Draft → Prop} (h : ∀ y, P y → Q y)
    (hd : Holds P fs d) : Holds Q fs d := by
  induction fs generalizing P Q with
  | nil => exact h d hd
  | cons f fs ih =>
    refine ih (fun x hx => ?_) hd
    obtain ⟨y, hy, hfill⟩ := hx
    exact ⟨y, h y hy, hfill⟩

theorem holds_cons {P : Draft → Prop} {f : Frame} {fs : List Frame} {d : Draft} :
    Holds P (f :: fs) d ↔ Holds (fun x => ∃ y, P y ∧ (State.fill y f).Extends x) fs d :=
  Iff.rfl

namespace State

/-! ### Where reading ends -/

variable {s : State} {t : Token} {ts : List Token} {d root : Draft}

/-- Nothing is closed any more. -/
def Lost (s : State) : Prop :=
  ∃ d, s.done = some d ∧ ¬ d.Closed

theorem not_closed_shut (e : ReadError) (f : Frame) : ¬ (shut (some e) f).Closed := by
  cases f <;> exact nofun

theorem not_closed_wrap (e : ReadError) (h : ¬ d.Closed) (fs : List Frame) :
    ¬ (wrap e d fs).Closed := by
  induction fs generalizing d with
  | nil => exact h
  | cons f fs ih => exact ih (not_closed_shut e _)

theorem lost_lose (s : State) (e : ReadError) (h : ¬ d.Closed) : (s.lose e d).Lost :=
  ⟨_, rfl, not_closed_wrap e h s.frames⟩

theorem lost_stop (s : State) (e : ReadError) : (s.stop e).Lost := by
  unfold stop
  split
  · exact lost_lose _ _ nofun
  · exact lost_lose _ _ nofun
  · exact lost_lose _ _ nofun
  · exact ⟨_, rfl, not_closed_wrap e (not_closed_shut e _) _⟩
  · exact ⟨_, rfl, nofun⟩

theorem step_of_done (h : s.done = some d) (t : Token) :
    (s.step t).done = some d ∧ (s.step t).trailing = true := by
  rw [step, if_pos (by rw [h]; rfl)]
  exact ⟨h, rfl⟩

theorem finish_of_done (h : s.done = some d) : s.finish = ⟨d, s.trailing⟩ := by
  rw [finish, h]

/-- When a value has ended, nothing changes it, and whatever follows is left over. -/
theorem run_of_done (h : s.done = some d) (ts : List Token) :
    (ts.foldl step s).finish.root = d ∧ (ts ≠ [] → (ts.foldl step s).finish.trailing = true) := by
  induction ts generalizing s with
  | nil => exact ⟨by rw [List.foldl_nil, finish_of_done h], fun hne => absurd rfl hne⟩
  | cons t ts ih =>
    obtain ⟨hdone, htrailing⟩ := step_of_done h t
    obtain ⟨hroot, hrest⟩ := ih hdone
    refine ⟨hroot, fun _ => ?_⟩
    cases ts with
    | nil => rw [List.foldl_cons, List.foldl_nil, finish_of_done hdone, htrailing]
    | cons u us => exact hrest (List.cons_ne_nil _ _)

theorem Lost.run (h : s.Lost) (ts : List Token) : ¬ (ts.foldl step s).finish.root.Closed := by
  obtain ⟨d, hdone, hd⟩ := h
  rwa [(run_of_done hdone ts).1]

theorem not_closed_finish (h : s.done = none) : ¬ s.finish.root.Closed := by
  obtain ⟨d, hdone, hd⟩ := lost_stop s .truncated
  rw [finish, h]
  dsimp only
  rwa [hdone]

/-! ### Tokens that are no marks -/

/-- What a token does as long as the value has not ended. -/
theorem step_of_open (h : s.done = none) (t : Token) :
    s.step t = match s.expect with
      | .value => s.takeValue t
      | .valueOrClose => if t = .mark ']' then s.pop else s.takeValue t
      | .comma => s.takeComma t
      | .name => s.takeName t
      | .nameOrClose => if t = .mark '\x7d' then s.pop else s.takeName t
      | .colon => if t = .mark ':' then { s with expect := .value } else s.stop .malformed := by
  rw [step]
  exact if_neg (by rw [h]; exact Bool.false_ne_true)

theorem takeComma_of_not_mark (s : State) (ht : ∀ c, t ≠ .mark c) :
    s.takeComma t = s.stop .malformed := by
  unfold takeComma
  split <;> first | rfl | exact absurd rfl (ht _)

theorem step_of_value (h : s.done = none) (ht : ∀ c, t ≠ .mark c)
    (hexpect : s.expect = .value ∨ s.expect = .valueOrClose) : s.step t = s.takeValue t := by
  rw [step_of_open h]
  rcases hexpect with hexpect | hexpect
  · rw [hexpect]
  · rw [hexpect]
    exact if_neg (ht _)

theorem step_of_name (h : s.done = none) (ht : ∀ c, t ≠ .mark c)
    (hexpect : s.expect = .name ∨ s.expect = .nameOrClose) : s.step t = s.takeName t := by
  rw [step_of_open h]
  rcases hexpect with hexpect | hexpect
  · rw [hexpect]
  · rw [hexpect]
    exact if_neg (ht _)

/-- A token that is no mark is a value or a name, or all is lost. -/
theorem step_of_not_mark (h : s.done = none) (ht : ∀ c, t ≠ .mark c) :
    (s.expect = .value ∨ s.expect = .valueOrClose) ∨
      (s.expect = .name ∨ s.expect = .nameOrClose) ∨ (s.step t).Lost := by
  cases hexpect : s.expect with
  | value => exact .inl (.inl rfl)
  | valueOrClose => exact .inl (.inr rfl)
  | name => exact .inr (.inl (.inl rfl))
  | nameOrClose => exact .inr (.inl (.inr rfl))
  | comma =>
    refine .inr (.inr ?_)
    rw [step_of_open h, hexpect]
    exact takeComma_of_not_mark s ht ▸ lost_stop s _
  | colon =>
    refine .inr (.inr ?_)
    rw [step_of_open h, hexpect]
    dsimp only
    rw [if_neg (ht _)]
    exact lost_stop s _

theorem lost_takeName (s : State) (ht : t.Fatal) : (s.takeName t).Lost := by
  unfold takeName
  split
  · cases ht
  · cases ht
  · exact lost_lose _ _ nofun
  · exact lost_lose _ _ nofun

theorem lost_takeValue (s : State) (ht : t.Fatal) : (s.takeValue t).Lost := by
  unfold takeValue
  split
  · cases ht
  · cases ht
  · exact lost_lose _ _ nofun
  · cases ht

/-- Nothing is closed behind a fatal token. -/
theorem lost_of_fatal (h : s.done = none) (ht : t.Fatal) : (s.step t).Lost := by
  have hmark : ∀ c, t ≠ .mark c := by
    rintro c rfl
    exact ht
  rcases step_of_not_mark h hmark with hexpect | hexpect | hlost
  · rw [step_of_value h hmark hexpect]
    exact lost_takeValue s ht
  · rw [step_of_name h hmark hexpect]
    exact lost_takeName s ht
  · exact hlost

theorem place_or_lost (h : s.done = none) (hd : ¬ d.Closed) :
    (s.place d).done = none ∨ (s.place d).Lost := by
  unfold place
  split
  · exact .inr ⟨d, rfl, hd⟩
  · exact .inl h

theorem await_or_lost (s : State) (k : Name) :
    (∃ deep ms l fs, s.frames = .fields deep ms l :: fs ∧
      s.await k = { s with frames := .fields deep ms (some k) :: fs, expect := .colon }) ∨
    (s.await k).Lost := by
  unfold await
  split
  · exact .inl ⟨_, _, _, _, ‹_›, rfl⟩
  · exact .inr (lost_stop s _)

/-- A token that is no mark closes nothing. -/
theorem open_or_lost (h : s.done = none) (ht : ∀ c, t ≠ .mark c) :
    (s.step t).done = none ∨ (s.step t).Lost := by
  rcases step_of_not_mark h ht with hexpect | hexpect | hlost
  · rw [step_of_value h ht hexpect]
    unfold takeValue
    split
    · exact place_or_lost h nofun
    · exact place_or_lost h nofun
    · exact .inr (lost_lose _ _ nofun)
    · exact absurd rfl (ht _)
  · rw [step_of_name h ht hexpect]
    unfold takeName
    split
    · rcases await_or_lost s (.text _) with ⟨_, _, _, _, -, hawait⟩ | hlost
      · exact .inl (by rw [hawait]; exact h)
      · exact .inr hlost
    · rcases await_or_lost s (.broken _) with ⟨_, _, _, _, -, hawait⟩ | hlost
      · exact .inl (by rw [hawait]; exact h)
      · exact .inr hlost
    · exact .inr (lost_lose _ _ nofun)
    · exact .inr (lost_lose _ _ nofun)
  · exact .inr hlost

theorem not_closed_of_not_mark (h : s.done = none) (ht : ∀ t ∈ ts, ∀ c, t ≠ .mark c) :
    ¬ (ts.foldl step s).finish.root.Closed := by
  induction ts generalizing s with
  | nil => exact not_closed_finish h
  | cons t ts ih =>
    obtain ⟨ht, hts⟩ := List.forall_mem_cons.mp ht
    rcases open_or_lost h ht with hopen | hlost
    · exact ih hopen hts
    · exact hlost.run ts

/-- Where a value has been closed and nothing follows it, no token is fatal. -/
theorem alive_of_closed (hroot : (ts.foldl step s).finish.root.Closed)
    (htrailing : (ts.foldl step s).finish.trailing = false) : Token.Alive ts := by
  induction ts generalizing s with
  | nil => exact List.forall_mem_nil _
  | cons t ts ih =>
    refine List.forall_mem_cons.mpr ⟨fun ht => ?_, ih hroot htrailing⟩
    cases hdone : s.done with
    | none => exact (lost_of_fatal hdone ht).run ts hroot
    | some d =>
      have hleft := (run_of_done hdone (t :: ts)).2 (List.cons_ne_nil _ _)
      rw [htrailing] at hleft
      cases hleft

/-! ### What the rest of a text can make of a state -/

/-- The draft is one that more tokens can lead to. -/
def Allows (s : State) (root : Draft) : Prop :=
  match s.done with
  | some d => d = root
  | none =>
    match s.expect, s.frames with
    | .value, fs => Holds (fun _ => True) fs root
    | .colon, fs => Holds (fun _ => True) fs root
    | .name, f :: fs => Holds f.Grows fs root
    | _, f :: fs => Holds f.Extends fs root
    | _, [] => True

theorem not_allows_of_lost (h : s.Lost) (hroot : root.Closed) : ¬ s.Allows root := by
  obtain ⟨d, hdone, hd⟩ := h
  unfold Allows
  rw [hdone]
  rintro rfl
  exact hd hroot

theorem holds_of_place (h : s.done = none) (ha : (s.place d).Allows root) :
    Holds (· = d) s.frames root := by
  unfold place at ha
  split at ha
  · rename_i hframes
    rw [hframes]
    exact ha.symm
  · rename_i f fs hframes
    rw [hframes]
    have ha : Holds (fill d f).Extends fs root := by
      unfold Allows at ha
      simpa only [h] using ha
    exact holds_cons.mpr (ha.mono fun x hx => ⟨d, rfl, hx⟩)

theorem holds_of_pop (h : s.done = none) (hroot : root.Closed) (ha : s.pop.Allows root) :
    ∃ f fs, s.frames = f :: fs ∧ Holds f.Extends fs root := by
  unfold pop at ha
  split at ha
  · exact absurd ha (not_allows_of_lost (lost_stop s _) hroot)
  · rename_i f fs hframes
    have hholds := holds_of_place (s := { s with frames := fs }) h ha
    refine ⟨f, fs, hframes, hholds.mono fun y hy => ?_⟩
    rw [hy]
    exact f.extends_shut none

theorem holds_of_push {frame : Bool → Frame} {expect : Expect} (h : s.done = none)
    (hexpect : expect = .valueOrClose ∨ expect = .nameOrClose)
    (ha : (s.push frame expect).Allows root) : Holds (fun _ => True) s.frames root := by
  have ha : Holds (frame (decide (maxDepth ≤ s.frames.length))).Extends s.frames root := by
    unfold Allows push at ha
    rcases hexpect with rfl | rfl <;> simpa only [h] using ha
  exact ha.mono fun _ _ => trivial

theorem holds_of_takeValue (h : s.done = none) (hroot : root.Closed)
    (ha : (s.takeValue t).Allows root) : Holds (fun _ => True) s.frames root := by
  unfold takeValue at ha
  split at ha
  · exact (holds_of_place h ha).mono fun _ _ => trivial
  · exact (holds_of_place h ha).mono fun _ _ => trivial
  · exact absurd ha (not_allows_of_lost (lost_lose s _ nofun) hroot)
  · split at ha
    · exact holds_of_push h (.inl rfl) ha
    · split at ha
      · exact holds_of_push h (.inr rfl) ha
      · exact absurd ha (not_allows_of_lost (lost_lose s _ nofun) hroot)

theorem holds_of_await {k : Name} (h : s.done = none) (hroot : root.Closed)
    (ha : (s.await k).Allows root) :
    ∃ deep ms l fs, s.frames = .fields deep ms l :: fs ∧
      Holds (fun _ => True) (.fields deep ms (some k) :: fs) root := by
  rcases await_or_lost s k with ⟨deep, ms, l, fs, hframes, hawait⟩ | hlost
  · refine ⟨deep, ms, l, fs, hframes, ?_⟩
    rw [hawait] at ha
    unfold Allows at ha
    simpa only [h] using ha
  · exact absurd ha (not_allows_of_lost hlost hroot)

theorem grows_of_takeName (h : s.done = none) (hroot : root.Closed)
    (ha : (s.takeName t).Allows root) : ∃ f fs, s.frames = f :: fs ∧ Holds f.Grows fs root := by
  have hgrows : ∀ k, (s.await k).Allows root → ∃ f fs, s.frames = f :: fs ∧
      Holds f.Grows fs root := by
    intro k ha
    obtain ⟨deep, ms, l, fs, hframes, hholds⟩ := holds_of_await h hroot ha
    refine ⟨_, fs, hframes, (holds_cons.mp hholds).mono ?_⟩
    rintro x ⟨y, -, ns, close, rfl⟩
    exact ⟨k, y, ns, close, by simp⟩
  unfold takeName at ha
  split at ha
  · exact hgrows _ ha
  · exact hgrows _ ha
  · exact absurd ha (not_allows_of_lost (lost_lose _ _ nofun) hroot)
  · exact absurd ha (not_allows_of_lost (lost_lose _ _ nofun) hroot)

theorem holds_of_takeComma (h : s.done = none) (hroot : root.Closed)
    (ha : (s.takeComma t).Allows root) :
    ∃ f fs, s.frames = f :: fs ∧ Holds f.Extends fs root := by
  unfold takeComma at ha
  split at ha
  · rename_i deep items fs hframes
    refine ⟨_, fs, hframes, ?_⟩
    unfold Allows at ha
    simp only [h, hframes] at ha
    exact (holds_cons.mp ha).mono fun x ⟨y, _, hx⟩ => Frame.extends_of_fill hx
  · exact holds_of_pop h hroot ha
  · rename_i deep ms l fs hframes
    refine ⟨_, fs, hframes, ?_⟩
    unfold Allows at ha
    simp only [h, hframes] at ha
    exact ha.mono fun x hx => hx.extends
  · exact holds_of_pop h hroot ha
  · exact absurd ha (not_allows_of_lost (lost_stop s _) hroot)

theorem allows_of_extends (hexpect : s.expect = .valueOrClose ∨ s.expect = .comma ∨
    s.expect = .nameOrClose) (h : s.done = none) {f : Frame} {fs : List Frame}
    (hframes : s.frames = f :: fs) : s.Allows root ↔ Holds f.Extends fs root := by
  unfold Allows
  rcases hexpect with hexpect | hexpect | hexpect <;> simp only [h, hexpect, hframes]

/-- What a token leads to has been possible before it. -/
theorem allows_of_step (h : s.done = none) (hroot : root.Closed) (ha : (s.step t).Allows root) :
    s.Allows root := by
  rw [step_of_open h] at ha
  cases hexpect : s.expect with
  | value =>
    rw [hexpect] at ha
    unfold Allows
    simpa only [h, hexpect] using holds_of_takeValue h hroot ha
  | valueOrClose =>
    rw [hexpect] at ha
    dsimp only at ha
    split at ha
    · obtain ⟨f, fs, hframes, hholds⟩ := holds_of_pop h hroot ha
      exact (allows_of_extends (.inl hexpect) h hframes).mpr hholds
    · have hholds := holds_of_takeValue h hroot ha
      cases hframes : s.frames with
      | nil =>
        unfold Allows
        simp only [h, hexpect, hframes]
      | cons f fs =>
        rw [hframes] at hholds
        refine (allows_of_extends (.inl hexpect) h hframes).mpr ?_
        exact (holds_cons.mp hholds).mono fun x ⟨y, _, hx⟩ => Frame.extends_of_fill hx
  | comma =>
    rw [hexpect] at ha
    obtain ⟨f, fs, hframes, hholds⟩ := holds_of_takeComma h hroot ha
    exact (allows_of_extends (.inr (.inl hexpect)) h hframes).mpr hholds
  | name =>
    rw [hexpect] at ha
    obtain ⟨f, fs, hframes, hholds⟩ := grows_of_takeName h hroot ha
    unfold Allows
    simpa only [h, hexpect, hframes] using hholds
  | nameOrClose =>
    rw [hexpect] at ha
    dsimp only at ha
    split at ha
    · obtain ⟨f, fs, hframes, hholds⟩ := holds_of_pop h hroot ha
      exact (allows_of_extends (.inr (.inr hexpect)) h hframes).mpr hholds
    · obtain ⟨f, fs, hframes, hholds⟩ := grows_of_takeName h hroot ha
      exact (allows_of_extends (.inr (.inr hexpect)) h hframes).mpr
        (hholds.mono fun x hx => hx.extends)
  | colon =>
    rw [hexpect] at ha
    dsimp only at ha
    split at ha
    · unfold Allows at ha ⊢
      simpa only [h, hexpect] using ha
    · exact absurd ha (not_allows_of_lost (lost_stop s _) hroot)

/-- Where a value is closed in the end and nothing follows it, this has been possible all
the time. -/
theorem allows_of_run (hroot : (ts.foldl step s).finish.root.Closed)
    (htrailing : (ts.foldl step s).finish.trailing = false) :
    s.Allows (ts.foldl step s).finish.root := by
  induction ts generalizing s with
  | nil =>
    cases hdone : s.done with
    | none => exact absurd hroot (not_closed_finish hdone)
    | some d =>
      unfold Allows
      rw [hdone]
      exact (run_of_done hdone []).1.symm
  | cons t ts ih =>
    cases hdone : s.done with
    | none => exact allows_of_step hdone hroot (ih hroot htrailing)
    | some d =>
      have hleft := (run_of_done hdone (t :: ts)).2 (List.cons_ne_nil _ _)
      rw [htrailing] at hleft
      cases hleft

end State
end Document
end Json
end ClusterKit
