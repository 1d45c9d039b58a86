/-
# Bodies that fail

The body of a watch may fail behind any byte of any line. The lines that are terminated by
then are reported as ever, the bytes behind the last newline are lost, and one failure says
so, behind which nothing more is read. It is the failure of the body, unless one of the
lines is no text: then the watch is over with that line already.

That a body broke off too early makes no difference. Each layer that hands a failure on
makes it one of its own and keeps no more than its text, so that nobody above knows of it.

Key definition: `Body.LastWord`.
Key theorem: `Client.failing_watch_ends_with_one_failure`.
-/
import ClusterKit.Proofs.Client.Lost

namespace ClusterKit

/-! ### The lines in front of the failure -/

/-- What a watch says when its body fails, if `told` is what it is told of the failure. -/
inductive Body.LastWord (b : Body) (told : String) : String → Prop
  | failed (h : ∀ line ∈ (Lines.split b.pieces.flatten).1,
      (Utf8.decode? (Lines.trim line)).isSome) : LastWord b told told
  | notText (h : ∃ line ∈ (Lines.split b.pieces.flatten).1,
      Utf8.decode? (Lines.trim line) = none) : LastWord b told "Unable to decode input as UTF8"

namespace TextLine

variable {line : List UInt8} {lines : List (List UInt8)}

theorem isSome_of_ofBytes {s : String} (h : ofBytes line = .ok s) :
    (Utf8.decode? (Lines.trim line)).isSome := by
  unfold ofBytes at h
  cases hcs : Utf8.decode? (Lines.trim line) with
  | some cs => rfl
  | none =>
    rw [hcs] at h
    cases h

/-- A line fails only as no text. -/
theorem eq_notText_of_ofBytes {f : LineFailure} (h : ofBytes line = .error f) :
    Utf8.decode? (Lines.trim line) = none ∧ f = .notText := by
  unfold ofBytes at h
  cases hcs : Utf8.decode? (Lines.trim line) with
  | some cs =>
    rw [hcs] at h
    cases h
  | none =>
    rw [hcs] at h
    cases h
    exact ⟨rfl, rfl⟩

theorem isSome_of_map_ofBytes {ss : List String} (h : lines.map ofBytes = ss.map Except.ok) :
    ∀ line ∈ lines, (Utf8.decode? (Lines.trim line)).isSome := by
  intro line hline
  have hmem : ofBytes line ∈ ss.map Except.ok := h ▸ List.mem_map_of_mem hline
  obtain ⟨s, -, hs⟩ := List.mem_map.mp hmem
  exact isSome_of_ofBytes hs.symm

theorem exists_notText_of_map_ofBytes {ss : List String} {f : LineFailure} {behind : List TextLine}
    (h : lines.map ofBytes = ss.map Except.ok ++ .error f :: behind) :
    (∃ line ∈ lines, Utf8.decode? (Lines.trim line) = none) ∧ f = .notText := by
  have hmem : .error f ∈ lines.map ofBytes := by
    rw [h]
    exact List.mem_append_right _ List.mem_cons_self
  obtain ⟨line, hline, hf⟩ := List.mem_map.mp hmem
  obtain ⟨hnone, rfl⟩ := eq_notText_of_ofBytes hf
  exact ⟨⟨line, hline, hnone⟩, rfl⟩

/-- The items of texts, line by line. -/
theorem exists_parts (ss : List String) :
    ∃ parts, List.Forall₂ Reported ss parts ∧
      ss.filterMap (fun s => item? (.ok s)) = parts.flatten := by
  refine ⟨_, reported_items ss, ?_⟩
  rw [List.filterMap_eq_flatMap_toList, List.flatMap_def]

end TextLine

/-! ### The failure -/

/-- The stream of a body that fails: the items of its lines, and one failure. -/
theorem EventStream.ofBody_of_failed {b : Body} {f : BodyFailure} (h : b.ending = .failed f) :
    ∃ text, b.LastWord f.error.message text ∧
      ofBody b = ⟨b.delivered.filterMap (fun s => TextLine.item? (.ok s)) ++
        [.error (.readEvents text)], true⟩ := by
  rcases TextLine.eq_texts ((Lines.split b.pieces.flatten).1.map TextLine.ofBytes) with
    htexts | ⟨lf, behind, hfailure⟩
  · refine ⟨_, .failed (TextLine.isSome_of_map_ofBytes htexts), ?_⟩
    rw [ofBody_of_texts htexts, h]
    rfl
  · obtain ⟨hnotText, rfl⟩ := TextLine.exists_notText_of_map_ofBytes hfailure
    exact ⟨_, .notText hnotText, ofBody_of_failure hfailure⟩

/-- A layer keeps the text of a failure, and not that the body broke off. -/
theorem Body.wrapped_ending {b : Body} {f : BodyFailure} (h : b.ending = .failed f) :
    b.wrapped.ending = .failed ⟨f.error.message, false⟩ := by
  unfold wrapped
  rw [h]

theorem Body.wrapped_delivered (b : Body) : b.wrapped.delivered = b.delivered := by
  rw [delivered, delivered, wrapped_pieces]

theorem Body.lastWord_of_wrapped {b : Body} {told text : String}
    (h : b.wrapped.LastWord told text) : b.LastWord told text := by
  cases h with
  | failed h => exact .failed (b.wrapped_pieces ▸ h)
  | notText h => exact .notText (b.wrapped_pieces ▸ h)

/-- **Bodies that fail.** A watch that is answered with success and of which the body fails, in
whatever way and wherever, reports the lines that are terminated by then, in their order by one
item each but for those that break off, and behind them there is one failure and nothing more. -/
theorem Client.failing_watch_ends_with_one_failure {t : Transport} {res : Response}
    {f : BodyFailure} (h : t.Answers res) (hcode : isSuccess res.code = true)
    (hfails : res.body.ending = .failed f) (call : Option String) (q : Request) :
    ∃ parts text t',
      Session.Gives (requestEvents call q) t
        ⟨parts.flatten ++ [.error (.readEvents text)], true⟩ t' ∧
      List.Forall₂ TextLine.Reported res.body.delivered parts ∧
      res.body.LastWord ("ServiceError: ServiceError: " ++ f.text) text := by
  obtain ⟨t', hgives⟩ := gives_events h hcode call q
  obtain ⟨text, hlast, hstream⟩ := EventStream.ofBody_of_failed (Body.wrapped_ending hfails)
  obtain ⟨parts, hparts, hitems⟩ := TextLine.exists_parts res.body.delivered
  rw [hstream, Body.wrapped_delivered, hitems] at hgives
  have htold : ClientError.message (.service (ClientError.message (.service f.text))) =
      "ServiceError: ServiceError: " ++ f.text := String.append_assoc.symm
  exact ⟨parts, text, t', hgives, hparts, htold ▸ Body.lastWord_of_wrapped hlast⟩

/-- A transport whose answer to every request is a success with this body. -/
def Transport.sending (b : Body) : Transport :=
  ⟨none, [], .response ⟨0⟩ ⟨200, b⟩, [], ⟨0⟩, ⟨1⟩⟩

theorem Transport.sending_answers (b : Body) : (sending b).Answers ⟨200, b⟩ :=
  ⟨rfl, Nat.zero_lt_one, ⟨0⟩, rfl⟩

/-- The connection is lost inside of the second line, which comes in two pieces. -/
theorem Client.watch_of_a_lost_connection :
    let v : Json := .fields [("type", .text "ADDED"),
      ("object", .fields [("metadata", .fields [("name", .text "a")])])]
    let b : Body := ⟨[Lines.terminated [v.bytes] ++ v.bytes.take 5, (v.bytes.drop 5).dropLast],
      .failed ⟨"connection reset", false⟩, none⟩
    let q : Request := ⟨.get, ⟨none, [], ['/'], none⟩, none, []⟩
    (Transport.sending b).Answers ⟨200, b⟩ ∧ isSuccess 200 = true ∧
      b.ending = .failed ⟨"connection reset", false⟩ ∧
      ∃ parts text t',
        Session.Gives (requestEvents none q) (.sending b)
          ⟨parts.flatten ++ [.error (.readEvents text)], true⟩ t' ∧
        List.Forall₂ TextLine.Reported [v.render] parts ∧
        b.LastWord ("ServiceError: ServiceError: " ++ "connection reset") text := by
  intro v b q
  have hdelivered : b.delivered = [v.render] := by decide +kernel
  rw [← hdelivered]
  exact ⟨Transport.sending_answers b, rfl, rfl,
    failing_watch_ends_with_one_failure (Transport.sending_answers b) rfl rfl none q⟩

/-- The failure of a body that broke off too early, behind the last of its lines, is told too. -/
theorem Client.watch_tells_of_an_early_end :
    let v : Json := .fields [("type", .text "ADDED"),
      ("object", .fields [("metadata", .fields [("name", .text "a")])])]
    let b : Body := ⟨[Lines.terminated [v.bytes]], .failed ⟨"unexpected end of file", true⟩, none⟩
    let q : Request := ⟨.get, ⟨none, [], ['/'], none⟩, none, []⟩
    ∃ stream t', Session.Gives (requestEvents none q) (.sending b) stream t' ∧
      b.delivered = [v.render] ∧
      stream.items = [.ok (.added ⟨none, .named "a", .fields []⟩),
        .error (.readEvents "ServiceError: ServiceError: unexpected end of file")] := by
  intro v b q
  obtain ⟨stream, t', h, hitems⟩ := Session.exists_gives (t := .sending b)
    (x := requestEvents none q)
    (fun stream => stream.items = [.ok (.added ⟨none, .named "a", .fields []⟩),
      .error (.readEvents "ServiceError: ServiceError: unexpected end of file")])
    (by decide +kernel)
  exact ⟨stream, t', h, by decide +kernel, of_decide_eq_true hitems⟩

end ClusterKit
