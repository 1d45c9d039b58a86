/-
# Texts that break off

A text that breaks off has the same draft as the whole text up to where it ends; from
there on the end stands in place of what is missing, in every list and object that is
still open.

Key definitions: `Draft.Shorter`, `Draft.BrokenOff`.
Key theorems: `Document.ofChars_of_blank`, `Document.not_closed_of_append`,
`Document.brokenOff_of_append`.
-/
import ClusterKit.Proofs.Json.Frames

namespace ClusterKit
namespace Json

namespace Draft

/-- What stands in front of the end of a text in place of a value that may go on: a number
that is shorter or ends here, or one beyond all doubles. -/
inductive Shorter : Draft → Draft → Prop
  | number {m n : Number} (h : m.Before n) :
      Shorter (.scalar (.number m)) (.scalar (.number n))
  | overflow (m : Number) : Shorter (.scalar (.number m)) (.broken .malformed .malformed none)
  | overflown : Shorter (.broken .malformed .malformed none) (.broken .malformed .malformed none)

/-- The first draft is the second one in a text that ends somewhere inside of it. -/
inductive BrokenOff : Draft → Draft → Prop
  | nothing (d : Draft) : BrokenOff (.dead .truncated) d
  | lone {e : ReadError} (he : e = .truncated ∨ e = .malformed) :
      BrokenOff (.broken e e (some .truncated)) (.broken .malformed .malformed none)
  | word {v : Scalar} (hv : v = .null ∨ ∃ b, v = .bool b) :
      BrokenOff (.broken .malformed .truncated (some .truncated)) (.scalar v)
  | listEnd (deep : Bool) (xs ys : List Draft) (close : Option ReadError) :
      BrokenOff (.list deep xs (some .truncated)) (.list deep (xs ++ ys) close)
  | listItem {x y : Draft} (h : BrokenOff x y) (deep : Bool) (xs ys : List Draft)
      (close : Option ReadError) :
      BrokenOff (.list deep (xs ++ [x]) (some .truncated)) (.list deep (xs ++ y :: ys) close)
  | listNumber {x y : Draft} (h : Shorter x y) (deep : Bool) (xs ys : List Draft)
      (close : Option ReadError) :
      BrokenOff (.list deep (xs ++ [x]) (some .truncated)) (.list deep (xs ++ y :: ys) close)
  | fieldsEnd (deep : Bool) (xs ys : List (Name × Draft)) (close : Option ReadError) :
      BrokenOff (.fields deep xs (some .truncated)) (.fields deep (xs ++ ys) close)
  | fieldsMember {x y : Draft} (h : BrokenOff x y) (deep : Bool) (k : Name)
      (xs ys : List (Name × Draft)) (close : Option ReadError) :
      BrokenOff (.fields deep (xs ++ [(k, x)]) (some .truncated))
        (.fields deep (xs ++ (k, y) :: ys) close)
  | fieldsNumber {x y : Draft} (h : Shorter x y) (deep : Bool) (k : Name)
      (xs ys : List (Name × Draft)) (close : Option ReadError) :
      BrokenOff (.fields deep (xs ++ [(k, x)]) (some .truncated))
        (.fields deep (xs ++ (k, y) :: ys) close)
  | fieldsName {e : ReadError} {k : Name} (he : e = .truncated ∨ ∃ e', k = .broken e')
      (deep : Bool) (xs : List (Name × Draft)) (y : Draft) (ys : List (Name × Draft))
      (close : Option ReadError) :
      BrokenOff (.fields deep (xs ++ [(.broken e, .dead .truncated)]) (some .truncated))
        (.fields deep (xs ++ (k, y) :: ys) close)

end Draft

namespace Document

namespace State

variable {s : State} {d root : Draft}

/-! ### Breaking off -/

open Draft (BrokenOff Shorter)

theorem brokenOff_shut {f : Frame} {x : Draft} (h : f.Extends x) :
    BrokenOff (shut (some .truncated) f) x := by
  cases f with
  | list deep items =>
    obtain ⟨ds, close, rfl⟩ := h
    exact .listEnd deep _ ds close
  | fields deep ms k =>
    obtain ⟨ns, close, rfl⟩ := h
    exact .fieldsEnd deep _ ns close

/-- A part that ends the text in its frame, given that it does in lists and in objects. -/
theorem brokenOff_fill_of {f : Frame} {x y z : Draft}
    (hlist : ∀ deep xs ys close,
      BrokenOff (.list deep (xs ++ [x]) (some .truncated)) (.list deep (xs ++ y :: ys) close))
    (hfields : ∀ deep k xs ys close,
      BrokenOff (.fields deep (xs ++ [(k, x)]) (some .truncated))
        (.fields deep (xs ++ (k, y) :: ys) close))
    (hz : (fill y f).Extends z) : BrokenOff (shut (some .truncated) (fill x f)) z := by
  cases f with
  | list deep items =>
    obtain ⟨ds, close, rfl⟩ := hz
    simpa [fill, shut] using hlist deep items.reverse ds close
  | fields deep ms k =>
    cases k with
    | none => exact brokenOff_shut hz
    | some k =>
      obtain ⟨ns, close, rfl⟩ := hz
      simpa [fill, shut] using hfields deep k ms.reverse ns close

theorem brokenOff_fill {f : Frame} {x y z : Draft} (h : BrokenOff x y)
    (hz : (fill y f).Extends z) : BrokenOff (shut (some .truncated) (fill x f)) z :=
  brokenOff_fill_of (BrokenOff.listItem h) (BrokenOff.fieldsMember h) hz

theorem brokenOff_fill_shorter {f : Frame} {x y z : Draft} (h : Shorter x y)
    (hz : (fill y f).Extends z) : BrokenOff (shut (some .truncated) (fill x f)) z :=
  brokenOff_fill_of (BrokenOff.listNumber h) (BrokenOff.fieldsNumber h) hz

/-- What breaks off inside of open frames makes the whole draft break off. -/
theorem brokenOff_wrap {P : Draft → Prop} (h : ∀ y, P y → BrokenOff d y) {fs : List Frame}
    (hroot : Holds P fs root) : BrokenOff (wrap .truncated d fs) root := by
  induction fs generalizing P d with
  | nil => exact h root hroot
  | cons f fs ih =>
    refine ih (fun x hx => ?_) (holds_cons.mp hroot)
    obtain ⟨y, hy, hfill⟩ := hx
    exact brokenOff_fill (h y hy) hfill

/-- A text that ends where the name of a member stands, or in front of it. -/
theorem brokenOff_name {P : Draft → Prop} {e : ReadError} {deep : Bool}
    {ms : List (Name × Draft)} {fs : List Frame}
    (hP : ∀ x, P x → ∃ k y ns close, x = .fields deep (ms.reverse ++ (k, y) :: ns) close ∧
      (e = .truncated ∨ ∃ e', k = .broken e'))
    (hroot : Holds P fs root) :
    BrokenOff (wrap .truncated (.dead .truncated) (.fields deep ms (some (.broken e)) :: fs))
      root := by
  rw [wrap]
  refine brokenOff_wrap (P := P) (fun x hx => ?_) hroot
  obtain ⟨k, y, ns, close, rfl, he⟩ := hP x hx
  simpa [fill, shut] using BrokenOff.fieldsName he deep ms.reverse y ns close

theorem finish_of_lose (s : State) (e : ReadError) (d : Draft) :
    (s.lose e d).finish.root = wrap e d s.frames := rfl

/-- A text that ends in front of a token. -/
theorem brokenOff_finish (h : s.done = none) (ha : s.Allows root) :
    BrokenOff s.finish.root root := by
  -- the end of a text is given up for like a token that is wrong there
  have hfinish : s.finish.root = (s.stop .truncated).finish.root := by
    obtain ⟨d, hdone, -⟩ := lost_stop s .truncated
    rw [finish_of_done hdone, finish, h]
    dsimp only
    rw [hdone]
    rfl
  rw [hfinish]
  unfold Allows at ha
  rw [h] at ha
  unfold stop
  split
  · rename_i hexpect
    rw [hexpect] at ha
    exact brokenOff_wrap (fun y _ => .nothing y) ha
  · rename_i hexpect
    rw [hexpect] at ha
    exact brokenOff_wrap (fun y _ => .nothing y) ha
  · rename_i hexpect hframes
    rw [hexpect, hframes] at ha
    refine brokenOff_name (fun x hx => ?_) ha
    obtain ⟨k, y, ns, close, rfl⟩ := hx
    exact ⟨k, y, ns, close, rfl, .inl rfl⟩
  · rename_i f fs hframes hvalue hcolon hname
    have hholds : Holds f.Extends fs root := by
      rw [hframes] at ha
      cases hexpect : s.expect with
      | value => exact absurd hexpect hvalue
      | colon => exact absurd hexpect hcolon
      | name =>
        rw [hexpect] at ha
        exact ha.mono fun x hx => hx.extends
      | valueOrClose => rwa [hexpect] at ha
      | comma => rwa [hexpect] at ha
      | nameOrClose => rwa [hexpect] at ha
    exact brokenOff_wrap (fun y hy => brokenOff_shut hy) hholds
  · exact .nothing root

/-- A text that ends in a number, in the place of a value. -/
theorem brokenOff_place {x y : Draft} (h : s.done = none) (hroot : root.Closed)
    (hxy : Shorter x y) (ha : Holds (· = y) s.frames root) :
    BrokenOff (s.place x).finish.root root := by
  unfold place
  split
  · rename_i hframes
    rw [hframes] at ha
    obtain rfl : root = y := ha
    cases hxy <;> cases hroot
  · rename_i f fs hframes
    rw [hframes] at ha
    unfold finish
    rw [h]
    refine brokenOff_wrap (fun z hz => ?_) (holds_cons.mp ha)
    obtain ⟨_, rfl, hfill⟩ := hz
    exact brokenOff_fill_shorter hxy hfill

theorem brokenOff_takeValue {x y : Token} (h : s.done = none) (hroot : root.Closed)
    (hcut : Token.Cut x y) (ha : (s.takeValue y).Allows root) :
    BrokenOff (s.takeValue x).finish.root root := by
  cases hcut with
  | text k => exact brokenOff_wrap (fun y _ => .nothing y) (holds_of_place h ha)
  | lone he =>
    refine brokenOff_wrap (fun y hy => ?_) (holds_of_place h ha)
    rw [hy]
    exact .lone he
  | word hv =>
    refine brokenOff_wrap (fun y hy => ?_) (holds_of_place h ha)
    rw [hy]
    exact .word hv
  | number hmn => exact brokenOff_place h hroot (.number hmn) (holds_of_place h ha)
  | overflow m => exact brokenOff_place h hroot (.overflow m) (holds_of_place h ha)
  | overflown => exact brokenOff_place h hroot .overflown (holds_of_place h ha)

theorem brokenOff_takeName {x y : Token} (h : s.done = none) (hroot : root.Closed)
    (hcut : Token.Cut x y) (ha : (s.takeName y).Allows root) :
    BrokenOff (s.takeName x).finish.root root := by
  have hname : ∀ {k e}, (s.await k).Allows root → (e = .truncated ∨ ∃ e', k = .broken e') →
      BrokenOff (s.loseName (.broken e) .truncated).finish.root root := by
    intro k e ha he
    obtain ⟨deep, ms, l, fs, hframes, hholds⟩ := holds_of_await h hroot ha
    rw [loseName, finish_of_lose, await, hframes]
    refine brokenOff_name (fun x hx => ?_) (holds_cons.mp hholds)
    obtain ⟨y, -, ns, close, rfl⟩ := hx
    exact ⟨k, y, ns, close, by simp, he⟩
  have hlost : ∀ {k e}, (s.loseName k e).Allows root → False := by
    intro k e ha
    have hlost : ((s.await k).lose e (.dead e)).Lost := lost_lose _ _ nofun
    exact not_allows_of_lost hlost hroot ha
  cases hcut with
  | text k => exact hname ha (.inl rfl)
  | lone he => exact hname ha (.inr ⟨_, rfl⟩)
  | word hv => rcases hv with rfl | ⟨b, rfl⟩ <;> exact (hlost ha).elim
  | number hmn => exact (hlost ha).elim
  | overflow m => exact (hlost ha).elim
  | overflown => exact (hlost ha).elim

/-- A text that ends inside of a token. -/
theorem brokenOff_step {x y : Token} (h : s.done = none) (hroot : root.Closed)
    (hcut : Token.Cut x y) (ha : (s.step y).Allows root) :
    BrokenOff (s.step x).finish.root root := by
  have hx : ∀ c, x ≠ .mark c := by
    rintro c rfl
    cases hcut
  have hy : ∀ c, y ≠ .mark c := by
    rintro c rfl
    cases hcut
  rcases step_of_not_mark h hy with hexpect | hexpect | hlost
  · rw [step_of_value h hx hexpect]
    rw [step_of_value h hy hexpect] at ha
    exact brokenOff_takeValue h hroot hcut ha
  · rw [step_of_name h hx hexpect]
    rw [step_of_name h hy hexpect] at ha
    exact brokenOff_takeName h hroot hcut ha
  · exact absurd ha (not_allows_of_lost hlost hroot)

end State

/-! ### Whole texts -/

/-- The state behind the tokens that a beginning cuts. -/
def State.behind (p : List Char) : State :=
  (Token.Mode.between.run p).1.foldl State.step State.init

theorem ofChars_append (p q : List Char) :
    ofChars (p ++ q) = ((Token.scanFrom (Token.Mode.between.run p).2 q).foldl State.step
      (State.behind p)).finish := by
  rw [ofChars, ofTokens, Token.scan, Token.scanFrom_append, List.foldl_append]
  rfl

theorem ofChars_eq (p : List Char) :
    ofChars p = ((Token.Mode.between.run p).2.finish.foldl State.step (State.behind p)).finish := by
  rw [ofChars, ofTokens, Token.scan, Token.scanFrom_eq, List.foldl_append]
  rfl

variable {p q : List Char}

/-- Where a value is closed in the end and nothing follows it, no token is fatal. -/
theorem alive_scan (hroot : (ofChars p).root.Closed) (htrailing : (ofChars p).trailing = false) :
    Token.Alive (Token.scan p) :=
  State.alive_of_closed hroot htrailing

/-- Behind the beginning of a text without a fatal token the machine goes on. -/
theorem between_or_inside (h : Token.Alive (Token.scan (p ++ q))) :
    (Token.Mode.between.run p).2 = .between ∨ (Token.Mode.between.run p).2.Inside := by
  rw [Token.scan, Token.scanFrom_append] at h
  rcases Token.Mode.sound_run (.inl rfl) p with hm | hm | ⟨-, t, ht, hfatal⟩
  · exact .inl hm
  · exact .inr hm
  · exact absurd hfatal (h t (List.mem_append_left _ ht))

section

variable (hroot : (ofChars (p ++ q)).root.Closed) (htrailing : (ofChars (p ++ q)).trailing = false)

include hroot htrailing

/-- No token follows a value that has ended. -/
theorem scan_of_done (hdone : (State.behind p).done ≠ none) :
    (Token.Mode.between.run p).2 = .between ∧ Token.scan q = [] := by
  have hmode := between_or_inside (alive_scan hroot htrailing)
  obtain ⟨d, hd⟩ := Option.ne_none_iff_exists'.mp hdone
  rw [ofChars_append] at htrailing
  have hrest : Token.scanFrom (Token.Mode.between.run p).2 q = [] := by
    by_contra hne
    have hleft := (State.run_of_done hd _).2 hne
    rw [htrailing] at hleft
    cases hleft
  rcases hmode with hm | hm
  · rw [hm] at hrest
    exact ⟨hm, hrest⟩
  · exact absurd hrest (Token.scanFrom_ne_nil hm q)

/-- A value ends where nothing but blanks follows. -/
theorem done_iff_blank : (State.behind p).done ≠ none ↔ Token.Blank q := by
  refine ⟨fun hdone => Token.blank_of_scan (scan_of_done hroot htrailing hdone).2, ?_⟩
  intro hq hdone
  rw [ofChars_append] at hroot
  refine State.not_closed_of_not_mark hdone (fun t ht c hc => ?_) hroot
  exact Token.mark_not_mem_of_blank hq _ c (hc ▸ ht)

/-- A text with a closed value, behind which nothing stands, has been whole before the blanks
at its end. -/
theorem ofChars_of_blank (hq : Token.Blank q) : ofChars p = ofChars (p ++ q) := by
  obtain ⟨hm, hscan⟩ := scan_of_done hroot htrailing ((done_iff_blank hroot htrailing).mpr hq)
  rw [ofChars_append, ofChars_eq, hm, show Token.scanFrom .between q = [] from hscan]
  rfl

/-- Anywhere else it is not closed. -/
theorem not_closed_of_append (hq : ¬ Token.Blank q) : ¬ (ofChars p).root.Closed := by
  have hdone : (State.behind p).done = none := by
    by_contra hne
    exact hq ((done_iff_blank hroot htrailing).mp hne)
  rw [ofChars_eq]
  refine State.not_closed_of_not_mark hdone fun t ht c hc => ?_
  exact Token.mark_not_mem_finish _ c (hc ▸ ht)

/-- And it breaks off there, except in the middle of a number without a value. -/
theorem brokenOff_of_append (hq : ¬ Token.Blank q) (hnumber : Token.splitsNumber p q = false) :
    Draft.BrokenOff (ofChars p).root (ofChars (p ++ q)).root := by
  have hdone : (State.behind p).done = none := by
    by_contra hne
    exact hq ((done_iff_blank hroot htrailing).mp hne)
  have halive := alive_scan hroot htrailing
  have hmode := between_or_inside halive
  rw [Token.scan, Token.scanFrom_append] at halive
  rw [ofChars_append] at hroot htrailing ⊢
  rw [ofChars_eq]
  rcases hmode with hm | hm
  · rw [hm] at hroot htrailing ⊢
    exact State.brokenOff_finish hdone (State.allows_of_run hroot htrailing)
  · have hend : ∀ n c, (Token.Mode.between.run p).2 = .number n → q.head? = some c →
        (n.push? c).isSome = true → n.complete = true ∧ n.value?.isSome = true := by
      intro n c hn hc hpush
      rw [Token.splitsNumber, hn, hc] at hnumber
      simpa [hpush] using hnumber
    -- the end cuts `x` where the whole text goes on with `y`
    obtain ⟨x, y, us, hfinish, hscan, hcut⟩ := Token.cut_of_inside hm
      (fun t ht => halive t (List.mem_append_right _ ht)) hend
    rw [hscan] at hroot htrailing ⊢
    rw [hfinish]
    exact State.brokenOff_step hdone hroot hcut (State.allows_of_run hroot htrailing)

end

end Document
end Json
end ClusterKit
