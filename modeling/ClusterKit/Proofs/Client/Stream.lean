/-
# The stream in an answer

A watch that is answered with success gives the stream of the answer's body. How the
body is cut into pieces makes no difference to it: the lines are those of all bytes at
once, up to the first that is no text, and then what the end of the body makes of the
bytes behind the last newline.

Key definitions: `Transport.Answers`, `Transport.serving`.
Key theorems: `Client.gives_events`, `TextLine.ofPieces_eq`, `EventStream.ofBody_of_texts`,
`EventStream.ofBody_of_failure`.
-/
import ClusterKit.Client.Calls
import ClusterKit.Proofs.Client.Session
import ClusterKit.Proofs.Text.Lines

namespace ClusterKit
namespace TextLine

/-! ### Up to the first failure -/

theorem untilFailure_append (as bs : List TextLine) :
    untilFailure (as ++ bs) =
      if (untilFailure as).2 then untilFailure as
      else ((untilFailure as).1 ++ (untilFailure bs).1, (untilFailure bs).2) := by
  induction as with
  | nil => rfl
  | cons a as ih =>
    cases a with
    | error f => rfl
    | ok s =>
      rw [List.cons_append, untilFailure, untilFailure, ih]
      cases untilFailure as with
      | mk lines failed => cases failed <;> rfl

theorem untilFailure_texts (ss : List String) :
    untilFailure (ss.map Except.ok) = (ss.map Except.ok, false) := by
  induction ss with
  | nil => rfl
  | cons s ss ih => rw [List.map_cons, untilFailure, ih]

theorem untilFailure_failure (ss : List String) (f : LineFailure) (behind : List TextLine) :
    untilFailure (ss.map Except.ok ++ .error f :: behind) =
      (ss.map Except.ok ++ [.error f], true) := by
  rw [untilFailure_append, untilFailure_texts]
  rfl

/-- The lines up to the first that is no text. -/
def texts : List TextLine → List String
  | .ok s :: lines => s :: texts lines
  | _ => []

theorem eq_texts (lines : List TextLine) :
    lines = (texts lines).map Except.ok ∨
      ∃ f behind, lines = (texts lines).map Except.ok ++ .error f :: behind := by
  induction lines with
  | nil => exact .inl rfl
  | cons line lines ih =>
    cases line with
    | error f => exact .inr ⟨f, lines, rfl⟩
    | ok s =>
      rcases ih with h | ⟨f, behind, h⟩
      · exact .inl (congrArg _ h)
      · exact .inr ⟨f, behind, congrArg _ h⟩

/-! ### All pieces at once -/

/-- The lines of pieces behind `rest` are those of all bytes up to the first failure, and
without one then the line that the end makes of what is left. -/
theorem ofPieces_eq (e : BodyEnd) (pieces : List (List UInt8)) : ∀ {rest : List UInt8},
    Lines.newline ∉ rest →
    ofPieces rest e pieces =
      if (untilFailure ((Lines.split (rest ++ pieces.flatten)).1.map ofBytes)).2 then
        untilFailure ((Lines.split (rest ++ pieces.flatten)).1.map ofBytes)
      else
        ((untilFailure ((Lines.split (rest ++ pieces.flatten)).1.map ofBytes)).1 ++
            (ofPieces (Lines.split (rest ++ pieces.flatten)).2 e []).1,
          (ofPieces (Lines.split (rest ++ pieces.flatten)).2 e []).2) := by
  induction pieces with
  | nil =>
    intro rest hrest
    rw [List.flatten_nil, List.append_nil, Lines.split_of_not_mem hrest]
    rfl
  | cons piece pieces ih =>
    intro rest hrest
    rw [List.flatten_cons, ← List.append_assoc, Lines.split_append]
    simp only [List.map_append, untilFailure_append]
    rw [ofPieces]
    simp only [ih (Lines.newline_not_mem_split (rest ++ piece))]
    generalize (Lines.split (rest ++ piece)).1.map ofBytes = first
    generalize Lines.split ((Lines.split (rest ++ piece)).2 ++ pieces.flatten) = whole
    cases untilFailure first with
    | mk lines failed =>
      cases failed with
      | true => rfl
      | false =>
        by_cases h : (untilFailure (whole.1.map ofBytes)).2 = true
        · simp only [h, if_true, Bool.false_eq_true, if_false]
        · simp only [h, if_false, Bool.false_eq_true, List.append_assoc]

/-- The end of a body makes at most one line of what is left. -/
theorem length_ofPieces_nil (rest : List UInt8) (e : BodyEnd) :
    (ofPieces rest e []).1.length ≤ 1 := by
  cases e with
  | complete =>
    unfold ofPieces
    cases Lines.last? rest <;> simp
  | failed f => exact Nat.le_refl 1
  | never => exact Nat.zero_le 1

end TextLine

namespace EventStream

/-! ### Bodies -/

variable {b : Body} {ss : List String}

/-- The items of lines that are all texts. -/
theorem ofBody_of_texts
    (h : (Lines.split b.pieces.flatten).1.map TextLine.ofBytes = ss.map Except.ok) :
    ofBody b =
      ⟨ss.filterMap (fun s => TextLine.item? (.ok s)) ++
          (TextLine.ofPieces (Lines.split b.pieces.flatten).2 b.ending []).1.filterMap
            TextLine.item?,
        (TextLine.ofPieces (Lines.split b.pieces.flatten).2 b.ending []).2⟩ := by
  have huntil := TextLine.untilFailure_texts ss
  rw [ofBody, TextLine.ofPieces_eq b.ending b.pieces List.not_mem_nil, List.nil_append, h, huntil]
  simp only [Bool.false_eq_true, if_false, List.filterMap_append, List.filterMap_map]
  rfl

/-- The items of lines of which one is no text. -/
theorem ofBody_of_failure {f : LineFailure} {behind : List TextLine}
    (h : (Lines.split b.pieces.flatten).1.map TextLine.ofBytes =
      ss.map Except.ok ++ .error f :: behind) :
    ofBody b = ⟨ss.filterMap (fun s => TextLine.item? (.ok s)) ++
      [.error f].filterMap TextLine.item?, true⟩ := by
  have huntil := TextLine.untilFailure_failure ss f behind
  rw [ofBody, TextLine.ofPieces_eq b.ending b.pieces List.not_mem_nil, List.nil_append, h, huntil]
  simp only [if_true, List.filterMap_append, List.filterMap_map]
  rfl

end EventStream

/-- The lines of a body that are terminated, up to the first that is no text. -/
def Body.delivered (b : Body) : List String :=
  TextLine.texts ((Lines.split b.pieces.flatten).1.map TextLine.ofBytes)

/-- The items of the terminated lines, and behind them at most one more. -/
theorem EventStream.ofBody_eq (b : Body) :
    ∃ last ended, last.length ≤ 1 ∧
      ofBody b = ⟨b.delivered.filterMap (fun s => TextLine.item? (.ok s)) ++ last, ended⟩ := by
  rcases TextLine.eq_texts ((Lines.split b.pieces.flatten).1.map TextLine.ofBytes) with
    h | ⟨f, behind, h⟩
  · refine ⟨_, _, ?_, ofBody_of_texts h⟩
    exact Nat.le_trans (List.length_filterMap_le _ _) (TextLine.length_ofPieces_nil _ _)
  · exact ⟨_, _, List.length_filterMap_le _ _, ofBody_of_failure h⟩

/-- A body that is complete is handed on as it is. -/
theorem Body.wrapped_of_complete {b : Body} (h : b.ending = .complete) : b.wrapped = b := by
  unfold wrapped
  rw [h]

theorem Body.ofBytes_pieces (bs : List UInt8) : (ofBytes bs).pieces.flatten = bs := by
  unfold ofBytes
  split
  · rename_i hempty
    exact (List.isEmpty_iff.mp hempty).symm
  · exact List.flatten_singleton

theorem Body.wrapped_pieces (b : Body) : b.wrapped.pieces = b.pieces := by
  unfold wrapped
  split <;> rfl

/-! ### Answers -/

/-- The transport answers the next request with `res`, in time. -/
structure Transport.Answers (t : Transport) (res : Response) : Prop where
  ready : t.unready = none
  timely : t.clock.millis < t.deadline.millis
  next : ∃ delay, t.answers.head?.getD t.lastAnswer = .response delay res

/-- A transport whose answer to every request is a success with these bytes. -/
def Transport.serving (bs : List UInt8) : Transport :=
  ⟨none, [], .response ⟨0⟩ ⟨200, .ofBytes bs⟩, [], ⟨0⟩, ⟨1⟩⟩

theorem Transport.serving_answers (bs : List UInt8) :
    (serving bs).Answers ⟨200, .ofBytes bs⟩ :=
  ⟨rfl, Nat.zero_lt_one, ⟨0⟩, rfl⟩

/-- A request that is answered gives the answer. -/
theorem Session.gives_send_of_answers {t : Transport} {res : Response} (h : t.Answers res)
    (call : Option String) (q : Request) :
    ∃ t', Gives (send call q) t { res with body := res.body.wrapped } t' := by
  obtain ⟨unready, answers, lastAnswer, sent, clock, deadline⟩ := t
  obtain ⟨delay, hnext⟩ := h.next
  obtain rfl : unready = none := h.ready
  refine ⟨⟨none, answers.tail, lastAnswer, sent ++ [⟨q, call⟩], ⟨clock.millis + delay.millis⟩,
    deadline⟩, gives_bind_of rfl ?_⟩
  dsimp only
  rw [if_neg (Nat.not_le.mpr h.timely), hnext]
  unfold Gives
  rfl

/-- A watch that is answered with success gives the stream of the body. -/
theorem Client.gives_events {t : Transport} {res : Response} (h : t.Answers res)
    (hcode : isSuccess res.code = true) (call : Option String) (q : Request) :
    ∃ t', Session.Gives (requestEvents call q) t (.ofBody res.body.wrapped) t' := by
  obtain ⟨t', hsend⟩ := Session.gives_send_of_answers h call q
  refine ⟨t', Session.gives_bind_of hsend ?_⟩
  dsimp only
  rw [if_pos hcode]
  exact Session.gives_pure.mpr ⟨rfl, rfl⟩

end ClusterKit
