/-
# Statuses on the wire

A status that a server sends gets to the caller as it is, whichever way it takes: as the
body of a failed answer, as a bare line of a watch, or in the event of an error. However
its members are ordered, a written status is one line without controls, so that it is cut
out of a body as a whole. As a line it is reported as a failure, in an event it is an
event, and either ends the watch for the status.

Key definitions: `Json.WrittenAs`, `Status.SaidBy`, `Body.HasLine`.
Key theorems: `Status.ofText_of_writtenAs`, `Status.SaidBy.item?_eq`,
`EventStream.ofBody_of_hasLine`, `Client.statuses_survive_the_wire`.
-/
import ClusterKit.Proofs.Client.Cut
import ClusterKit.Proofs.Client.Failure
import ClusterKit.Proofs.Wire.Status

namespace ClusterKit

/-- A text that is a line as it is: nothing in it ends the line, and nothing is cut off. -/
structure TextLine.IsWhole (text : String) : Prop where
  unbroken : Lines.newline ∉ Utf8.encode text.toList
  reads : TextLine.ofBytes (Utf8.encode text.toList) = .ok text

/-! ### Written values -/

namespace Json

/-- The text is one that the value is written as, its members and those of its parts in
any order. -/
def WrittenAs (w : Json) (text : String) : Prop :=
  ∃ v : Json, v.Reordered w ∧ text = v.render

theorem writtenAs_render (w : Json) : w.WrittenAs w.render :=
  ⟨w, reordered_refl w, rfl⟩

namespace WrittenAs

variable {w : Json} {text : String} {n : Nat}

/-- Nothing in a written value is a control. -/
theorem le_of_mem (h : w.WrittenAs text) (hw : w.Plain n) : ∀ d ∈ text.toList, 0x20 ≤ d.toNat := by
  obtain ⟨v, hv, rfl⟩ := h
  rw [render, String.toList_ofList]
  exact le_of_mem_renderChars (hw.reordered hv).whole

/-- So it has neither a newline nor, at its end, a carriage return. -/
theorem isWhole (h : w.WrittenAs text) (hw : w.Plain n) : TextLine.IsWhole text := by
  have hcontrol : ∀ d : Char, d.toNat < 0x20 → d ∉ text.toList :=
    fun d hd hmem => Nat.not_le_of_lt hd (h.le_of_mem hw d hmem)
  constructor
  · intro hmem
    exact hcontrol _ (by decide) (Utf8.mem_encode (by decide) hmem)
  · have hlast : text.toList.getLast? ≠ some '\r' :=
      fun hlast => hcontrol '\r' (by decide) (List.mem_of_getLast? hlast)
    rw [TextLine.ofBytes_encode, Lines.trimText, if_neg hlast, String.ofList_toList]

end WrittenAs
end Json

/-! ### Lines with a status -/

namespace Status

/-- The event of an error as it is written. -/
def eventJson (s : Status) : Json :=
  .fields [("object", s.toJson), ("type", .text "ERROR")]

/-- A line that carries a status, and the item that it says: a bare status is a failure, and
that of an event of an error is an event. -/
inductive SaidBy (s : Status) : String → RawItem → Prop
  | bare {text : String} (h : s.toJson.WrittenAs text) : SaidBy s text (.error (.api s))
  | event {text : String} (h : s.eventJson.WrittenAs text) : SaidBy s text (.ok (.error s))

variable {s : Status} {text : String} {item : RawItem}

theorem plain_eventJson (hs : s.Fits) : s.eventJson.Plain 5 := by
  refine Json.plain_fields.mpr fun m hm => ?_
  simp only [List.mem_cons, List.not_mem_nil, or_false] at hm
  rcases hm with rfl | rfl
  · exact plain_toJson hs
  · exact Json.plain_text _ _

/-- A status is read back from its text. -/
theorem ofText_of_writtenAs (hs : s.Fits) (h : s.toJson.WrittenAs text) :
    reader.ofText text = .ok s := by
  obtain ⟨v, hv, rfl⟩ := h
  exact (recovers_toJson hs).ofText ((plain_toJson hs).mono (by decide)) hv

/-- The event of an error is read back from its text, whatever the objects of the watch are. -/
theorem ofText_of_event (r : Json.Reader α) (hs : s.Fits) (h : s.eventJson.WrittenAs text) :
    (WatchEvent.reader r).ofText text = .ok (.error s) := by
  obtain ⟨v, hv, rfl⟩ := h
  exact (recovers_event r hs).ofText ((plain_eventJson hs).mono (by decide)) hv

/-- The text of a status is none of an event, though a whole value. -/
theorem ofText_of_bare (r : Json.Reader α) (hs : s.Fits) (h : s.toJson.WrittenAs text) :
    (WatchEvent.reader r).ofText text = .error .mismatch := by
  obtain ⟨v, hv, rfl⟩ := h
  have hv' : v.Plain Json.Document.maxDepth :=
    ((plain_toJson hs).mono (by decide)).reordered hv
  rw [Json.Reader.ofText_render _ hv']
  exact reader_bare r hv

namespace SaidBy

/-- What a line with a status says. -/
theorem item?_eq (h : s.SaidBy text item) (hs : s.Fits) :
    TextLine.item? (.ok text) = some item := by
  cases h with
  | bare h =>
    unfold TextLine.item?
    dsimp only
    rw [ofText_of_bare Erased.reader hs h, ofText_of_writtenAs hs h]
  | event h => exact TextLine.item?_of_event (ofText_of_event Erased.reader hs h)

/-- It ends a watch for the status. -/
theorem ofItem_eq (h : s.SaidBy text item) (K : Kind α) (r : ApiResource) :
    Forwarded.ofItem K r item = .finish (.api s) := by
  cases h <;> rfl

theorem isWhole (h : s.SaidBy text item) (hs : s.Fits) : TextLine.IsWhole text := by
  cases h with
  | bare h => exact h.isWhole (plain_toJson hs)
  | event h => exact h.isWhole (plain_eventJson hs)

end SaidBy
end Status

/-! ### Bodies with a line -/

/-- The body has the line of the text behind the lines `pre`, all of which are texts, and
behind it a newline or its end. -/
structure Body.HasLine (b : Body) (pre : List (List UInt8)) (text : String) : Prop where
  texts : ∀ line ∈ pre, Lines.newline ∉ line ∧ ∃ s, TextLine.ofBytes line = .ok s
  bytes : ∃ behind, b.pieces.flatten =
      Lines.terminated pre ++ (Utf8.encode text.toList ++ behind) ∧
    ((∃ more, behind = Lines.newline :: more) ∨ behind = [] ∧ b.ending = .complete)

theorem Body.HasLine.wrapped {b : Body} {pre : List (List UInt8)} {text : String}
    (h : b.HasLine pre text) : b.wrapped.HasLine pre text := by
  obtain ⟨behind, hbytes, hbehind⟩ := h.bytes
  refine ⟨h.texts, behind, ?_, hbehind.imp_right fun ⟨hnil, hend⟩ => ⟨hnil, ?_⟩⟩
  · rw [wrapped_pieces, hbytes]
  · rw [wrapped_of_complete hend, hend]

theorem TextLine.exists_texts {lines : List (List UInt8)}
    (h : ∀ line ∈ lines, ∃ s, ofBytes line = .ok s) :
    ∃ ss : List String, lines.map ofBytes = ss.map Except.ok := by
  induction lines with
  | nil => exact ⟨[], rfl⟩
  | cons line lines ih =>
    obtain ⟨⟨s, hs⟩, hlines⟩ := List.forall_mem_cons.mp h
    obtain ⟨ss, hss⟩ := ih hlines
    exact ⟨s :: ss, by rw [List.map_cons, List.map_cons, hs, hss]⟩

namespace EventStream

variable {b : Body} {ss : List String}

/-- What lines that are texts say comes first, whatever comes behind them. -/
theorem ofBody_of_texts_append {behind : List TextLine}
    (h : (Lines.split b.pieces.flatten).1.map TextLine.ofBytes = ss.map Except.ok ++ behind) :
    ∃ more ended, ofBody b = ⟨ss.filterMap (fun s => TextLine.item? (.ok s)) ++ more, ended⟩ := by
  rcases TextLine.eq_texts behind with htexts | ⟨f, rest, htexts⟩
  · rw [htexts, ← List.map_append] at h
    rw [ofBody_of_texts h, List.filterMap_append, List.append_assoc]
    exact ⟨_, _, rfl⟩
  · rw [htexts, ← List.append_assoc, ← List.map_append] at h
    rw [ofBody_of_failure h, List.filterMap_append, List.append_assoc]
    exact ⟨_, _, rfl⟩

variable {text : String} {item : RawItem} (hitem : TextLine.item? (.ok text) = some item)

include hitem

theorem ofBody_of_line {behind : List TextLine}
    (h : (Lines.split b.pieces.flatten).1.map TextLine.ofBytes =
      ss.map Except.ok ++ .ok text :: behind) :
    ∃ more ended, ofBody b =
      ⟨ss.filterMap (fun s => TextLine.item? (.ok s)) ++ item :: more, ended⟩ := by
  have htexts : ss.map Except.ok ++ .ok text :: behind =
      ((ss ++ [text]).map Except.ok ++ behind : List TextLine) := by
    rw [List.map_append, List.append_assoc]
    rfl
  obtain ⟨more, ended, hstream⟩ := ofBody_of_texts_append (h.trans htexts)
  refine ⟨more, ended, ?_⟩
  rw [hstream, List.filterMap_append, List.append_assoc, List.filterMap_cons, hitem]
  rfl

/-- The last line of a complete body counts without a newline. -/
theorem ofBody_of_last_line
    (h : (Lines.split b.pieces.flatten).1.map TextLine.ofBytes = ss.map Except.ok)
    (hlast : TextLine.ofBytes (Lines.split b.pieces.flatten).2 = .ok text)
    (hend : b.ending = .complete) :
    ofBody b = ⟨ss.filterMap (fun s => TextLine.item? (.ok s)) ++ [item], true⟩ := by
  rw [ofBody_of_texts h, hend, TextLine.items_of_rest, hlast, hitem]
  rfl

/-- What a line says that a body has comes behind what the lines in front of it say. -/
theorem ofBody_of_hasLine {pre : List (List UInt8)} (h : b.HasLine pre text)
    (htext : TextLine.IsWhole text) :
    ∃ behind ended, ofBody b =
      ⟨(pre.map TextLine.ofBytes).filterMap TextLine.item? ++ item :: behind, ended⟩ := by
  have hunbroken : ∀ line ∈ pre, Lines.newline ∉ line := fun line hl => (h.texts line hl).1
  obtain ⟨ss, hss⟩ := TextLine.exists_texts fun line hl => (h.texts line hl).2
  have hbefore : (pre.map TextLine.ofBytes).filterMap TextLine.item? =
      ss.filterMap fun s => TextLine.item? (.ok s) := by
    rw [hss, List.filterMap_map]
    rfl
  rw [hbefore]
  obtain ⟨behind, hbytes, ⟨more, rfl⟩ | ⟨rfl, hend⟩⟩ := h.bytes
  · have hsplit : (Lines.split b.pieces.flatten).1 =
        pre ++ Utf8.encode text.toList :: (Lines.split more).1 := by
      rw [hbytes, Lines.split_terminated_append hunbroken, Lines.split_line htext.unbroken]
    have hlines : (Lines.split b.pieces.flatten).1.map TextLine.ofBytes =
        ss.map Except.ok ++ .ok text :: (Lines.split more).1.map TextLine.ofBytes := by
      rw [hsplit, List.map_append, List.map_cons, hss, htext.reads]
    exact ofBody_of_line hitem hlines
  · have hsplit : Lines.split b.pieces.flatten = (pre, Utf8.encode text.toList) := by
      rw [hbytes, List.append_nil, Lines.split_terminated hunbroken htext.unbroken]
    refine ⟨[], true, ofBody_of_last_line hitem ?_ ?_ hend⟩
    · rw [hsplit, hss]
    · rw [hsplit, htext.reads]

end EventStream

/-! ### Watches -/

/-- An item that says a status ends a watch for it, unless one in front of it has. -/
theorem Watcher.endsFor_of_saidBy (K : Kind α) (r : ApiResource) {s : Status} {text : String}
    {item : RawItem} (h : s.SaidBy text item) (before behind : List RawItem) (ended : Bool) :
    (Watcher.ofItems r (before ++ item :: behind) ended).EndsFor K (Forwarded.changes K r before)
      ((Forwarded.cause? K r before).getD (.api s)) := by
  have hitem := h.ofItem_eq K r
  have hends := endsFor_of_cause? (Forwarded.cause?_append_finish before behind hitem) ended
  rw [Forwarded.changes_append_finish before behind hitem] at hends
  exact hends

/-- A watch with a request that is answered with success reads the stream of the answer. -/
theorem ServerApi.gives_watch_of_answers (K : Kind α) (api : ServerApi) {ns : String}
    {p : ListParams} {q : Request} (hq : Request.watch (api.resource.urlPath ns) p = .ok q)
    {t : Transport} {res : Response} (h : t.Answers res)
    (hcode : Client.isSuccess res.code = true) :
    ∃ t', Session.Gives ((api.calls K).watch ns p) t
      (.ofSource api.resource (.script (EventStream.ofBody res.body.wrapped).items
        (EventStream.ofBody res.body.wrapped).ended)) t' := by
  obtain ⟨t', hevents⟩ := Client.gives_events h hcode (some "watch") q
  have hbuilding : Session.Gives (building (Request.watch (api.resource.urlPath ns) p)) t q t := by
    rw [hq]
    exact Session.gives_pure.mpr ⟨rfl, rfl⟩
  refine ⟨t', Session.gives_bind_of hbuilding (Session.gives_bind_of hevents ?_)⟩
  exact Session.gives_pure.mpr ⟨rfl, rfl⟩

namespace Client

open Session (Ends Gives)

variable {s : Status} {text : String} {t : Transport} {delay : Span} {code : Nat}

/-! ### Failed answers -/

theorem isSuccess_of_isFailure (h : isFailure code = true) : isSuccess code = false := by
  unfold isFailure at h
  unfold isSuccess
  simp only [Bool.and_eq_true, decide_eq_true_eq] at h
  simp only [Bool.and_eq_false_iff, decide_eq_false_iff_not]
  omega

/-- A status in a failed answer is what each request fails with. -/
theorem ends_of_failed_answer (hs : s.Fits) (h : s.toJson.WrittenAs text)
    (ht : t.AnswersText delay code text) (hcode : isFailure code = true) (call : Option String)
    (q : Request) :
    Ends (requestText call q) t (.error (.api s)) (t.after call q delay) ∧
    (∀ {β : Type} (reader : Json.Reader β),
      Ends (request reader call q) t (.error (.api s)) (t.after call q delay)) ∧
    Ends (requestEvents call q) t (.error (.api s)) (t.after call q delay) := by
  have hreported : reportedStatus code text = s :=
    (reportedStatus_cases code text).1 s (Status.ofText_of_writtenAs hs h)
  have htext := ends_requestText ht call q
  have hevents := ends_requestEvents ht call q
  rw [isSuccess_of_isFailure hcode, hcode, hreported] at hevents
  rw [hcode, hreported] at htext
  refine ⟨htext, fun reader => ?_, hevents⟩
  have hvalue := ends_request ht reader call q
  rw [hcode, hreported] at hvalue
  exact hvalue

/-- **Statuses on the wire.** A status is read back from its text, and so is the event of an error
that carries it, whatever the objects of a watch are; its bare text is no event. In an answer with
a code from 400 to 599 it is what each request fails with. In a line of a watch, bare or in an
event of an error, it is the item behind those of the lines in front of it, and a watch of any
such items passes on the changes in front of it and ends for the status, if not before. -/
theorem statuses_survive_the_wire (K : Kind α) (hs : s.Fits) :
    (∀ text, s.toJson.WrittenAs text → Status.reader.ofText text = .ok s) ∧
    (∀ {β : Type} (r : Json.Reader β) (text : String),
      (s.toJson.WrittenAs text → (WatchEvent.reader r).ofText text = .error .mismatch) ∧
      (s.eventJson.WrittenAs text → (WatchEvent.reader r).ofText text = .ok (.error s))) ∧
    (∀ text, s.toJson.WrittenAs text → ∀ (t : Transport) (delay : Span) (code : Nat),
      t.AnswersText delay code text → isFailure code = true → ∀ call q,
        Ends (requestText call q) t (.error (.api s)) (t.after call q delay) ∧
        (∀ {β : Type} (reader : Json.Reader β),
          Ends (request reader call q) t (.error (.api s)) (t.after call q delay)) ∧
        Ends (requestEvents call q) t (.error (.api s)) (t.after call q delay)) ∧
    (∀ text item, s.SaidBy text item → ∀ (t : Transport) (res : Response) pre,
      t.Answers res → isSuccess res.code = true → res.body.HasLine pre text →
        let before := (pre.map TextLine.ofBytes).filterMap TextLine.item?
        (∀ call q, ∃ behind ended t',
          Gives (requestEvents call q) t ⟨before ++ item :: behind, ended⟩ t') ∧
        ∀ (api : ServerApi) ns p q, Request.watch (api.resource.urlPath ns) p = .ok q →
          ∃ l t', Gives ((api.calls K).watch ns p) t l t' ∧
            l.watcher.EndsFor K (Forwarded.changes K api.resource before)
              ((Forwarded.cause? K api.resource before).getD (.api s))) ∧
    ∀ text item, s.SaidBy text item → ∀ r before behind ended,
      (Watcher.ofItems r (before ++ item :: behind) ended).EndsFor K
        (Forwarded.changes K r before) ((Forwarded.cause? K r before).getD (.api s)) := by
  refine ⟨fun text h => Status.ofText_of_writtenAs hs h, fun r text => ⟨fun h => ?_, fun h => ?_⟩,
    fun text h t delay code ht hcode call q => ends_of_failed_answer hs h ht hcode call q,
    fun text item h t res pre ht hcode hline => ?_,
    fun text item h r before behind ended => Watcher.endsFor_of_saidBy K r h before behind ended⟩
  · exact Status.ofText_of_bare r hs h
  · exact Status.ofText_of_event r hs h
  · intro before
    obtain ⟨behind, ended, hstream⟩ :=
      EventStream.ofBody_of_hasLine (h.item?_eq hs) hline.wrapped (h.isWhole hs)
    refine ⟨fun call q => ?_, fun api ns p q hq => ?_⟩
    · obtain ⟨t', hgives⟩ := gives_events ht hcode call q
      rw [hstream] at hgives
      exact ⟨behind, ended, t', hgives⟩
    · obtain ⟨t', hgives⟩ := ServerApi.gives_watch_of_answers K api hq ht hcode
      rw [hstream] at hgives
      exact ⟨_, t', hgives, Watcher.endsFor_of_saidBy K api.resource h before behind ended⟩

/-- An outdated watch is told so by the code of the answer, and by an event behind another one. -/
theorem expired_status_survives_the_wire :
    let cause : StatusCause := ⟨some "metadata.resourceVersion", none, some "Outdated"⟩
    let s : Status := ⟨"Failure", "too \"old\"\n", "Expired", 410,
      some ⟨some [cause], none, some "configmaps", none, some 30, none⟩⟩
    let t : Transport := .reporting 410 s.toJson.render
    let bs := Lines.terminated [EventLine.accented.bytes] ++ Utf8.encode s.eventJson.render.toList
    let c : ConfigMap := ⟨.named "é", none, none, none⟩
    (∀ q, Ends (requestText none q) t (.error (.api s)) (t.after none q ⟨0⟩)) ∧
      ∃ l t', Gives ((ServerApi.calls ConfigMap.asKind ⟨ConfigMap.resource⟩).watch "x" .none)
          (.serving bs) l t' ∧
        l.watcher.EndsFor ConfigMap.asKind [.added c] (.api s) := by
  intro cause s t bs c
  have hs : s.Fits := by
    refine ⟨by decide, ?_⟩
    rintro d ⟨⟩ n ⟨⟩
    decide
  obtain ⟨-, -, hfailed, hlines, -⟩ := statuses_survive_the_wire ConfigMap.asKind hs
  refine ⟨fun q => (hfailed _ (Json.writtenAs_render _) t ⟨0⟩ 410
    (Transport.reporting_answersText 410 _) rfl none q).1, ?_⟩
  have hline : (Body.ofBytes bs).HasLine [EventLine.accented.bytes] s.eventJson.render := by
    refine ⟨List.forall_mem_singleton.mpr ⟨EventLine.accented.newline_not_mem,
      _, TextLine.ofBytes_encode _⟩, [], ?_, .inr ⟨rfl, rfl⟩⟩
    rw [Body.ofBytes_pieces, List.append_nil]
  obtain ⟨-, hwatch⟩ := hlines _ _ (.event (Json.writtenAs_render _)) (.serving bs) _ _
    (Transport.serving_answers bs) rfl hline
  obtain ⟨l, t', hgives, hends⟩ := hwatch ⟨ConfigMap.resource⟩ "x" .none
    ⟨.get, ⟨none, [], "/api/v1/namespaces/x/configmaps".toList, some "&watch=true".toList⟩,
      none, []⟩ (by decide +kernel)
  have hbefore : ([EventLine.accented.bytes].map TextLine.ofBytes).filterMap TextLine.item? =
      [.ok EventLine.accented.event] := by
    rw [List.map_singleton, List.filterMap_cons, EventLine.item?_ofBytes]
    rfl
  have hpassed : Forwarded.changes ConfigMap.asKind ConfigMap.resource
      [.ok EventLine.accented.event] = [.added c] := by
    decide +kernel
  have hlasts : Forwarded.cause? ConfigMap.asKind ConfigMap.resource
      [.ok EventLine.accented.event] = none := by
    decide +kernel
  rw [hbefore, hpassed, hlasts] at hends
  exact ⟨l, t', hgives, hends⟩

end Client
end ClusterKit
