/-
# Watches that are cut off

A body of lines that ends anywhere, even inside of a line, gives the events of the lines
in front of its end. Of the line that it ends in it gives nothing, except that the event
is there as soon as only blanks are missing. The exception to this are two places in
which the beginning of a line does not look like one: inside of a character the line is
no text, and where a number stands without its digits, or too large so far, it may
be wrong in itself. Both are told as failures, behind all the events.

Key definitions: `EventLine`, `EventLine.Leaves`.
Key theorem: `Client.cut_watch_gives_events_before_cut`.
-/
import ClusterKit.Proofs.Client.Stream
import ClusterKit.Proofs.Client.Watch
import ClusterKit.Proofs.Wire.PatientEvent

namespace ClusterKit

/-! ### Lines that are cut -/

/-- A line of a watch: a text in one line that reads as an event. -/
structure EventLine where
  text : String
  event : WatchEvent Erased
  unbroken : '\n' ∉ text.toList
  reads : (WatchEvent.reader Erased.reader).ofText text = .ok event

namespace EventLine

/-- The bytes of a line. -/
def bytes (l : EventLine) : List UInt8 :=
  Utf8.encode l.text.toList

/-- What a watch gives for the part of a line in which its body ends. -/
inductive Leaves (l : EventLine) : List UInt8 → List RawItem → Prop
  | event {p q : List Char} (h : l.text.toList = p ++ q) (hq : Json.Token.Blank q) :
      Leaves l (Utf8.encode p) [.ok l.event]
  | nothing {p q : List Char} (h : l.text.toList = p ++ q) (hq : ¬ Json.Token.Blank q)
      (hnumber : Json.Token.splitsNumber p q = false) : Leaves l (Utf8.encode p) []
  | number {p q : List Char} (h : l.text.toList = p ++ q) (hq : ¬ Json.Token.Blank q)
      (hnumber : Json.Token.splitsNumber p q = true) {items : List RawItem}
      (hitems : items = [] ∨ ∃ x, items = [.error x]) : Leaves l (Utf8.encode p) items
  | character {p q : List Char} {c : Char} {as : List UInt8} (h : l.text.toList = p ++ c :: q)
      (has : Utf8.Splits as c) :
      Leaves l (Utf8.encode p ++ as) [.error (.readEvents "Unable to decode input as UTF8")]

end EventLine

namespace TextLine

/-! ### Bytes as lines -/

theorem ofBytes_encode (cs : List Char) :
    ofBytes (Utf8.encode cs) = .ok (String.ofList (Lines.trimText cs)) := by
  rw [ofBytes, Lines.trim_encode, Utf8.decode?_encode]

/-- Bytes that end inside a character are no text. -/
theorem ofBytes_of_splits (cs : List Char) {c : Char} {as : List UInt8} (h : Utf8.Splits as c) :
    ofBytes (Utf8.encode cs ++ as) = .error .notText := by
  have hlast : (Utf8.encode cs ++ as).getLast? ≠ some Lines.carriageReturn := by
    intro hlast
    rw [List.getLast?_append, Option.or_eq_some_iff] at hlast
    rcases hlast with hlast | ⟨hlast, -⟩
    · exact absurd (h.le_of_mem (List.mem_of_getLast? hlast)) (by decide)
    · exact h.ne_nil (List.getLast?_eq_none_iff.mp hlast)
  rw [ofBytes, Lines.trim_of_getLast_ne hlast, Utf8.decode?_of_splits cs h]

/-- What is left at the end of a body says what its line says. -/
theorem items_of_rest (rest : List UInt8) :
    (ofPieces rest .complete []).1.filterMap item? = (item? (ofBytes rest)).toList := by
  unfold ofPieces Lines.last?
  by_cases hrest : rest = [] ∨ rest = [Lines.carriageReturn]
  · have hnone : item? (ofBytes []) = none ∧ item? (ofBytes [Lines.carriageReturn]) = none := by
      decide +kernel
    rcases hrest with rfl | rfl
    · rw [hnone.1]
      rfl
    · rw [hnone.2]
      rfl
  · rw [not_or] at hrest
    have hsome : (rest.isEmpty || rest == [Lines.carriageReturn]) = false := by
      simp [hrest]
    rw [hsome]
    cases hitem : item? (ofBytes rest) <;> simp [hitem]

end TextLine

namespace EventLine

variable (l : EventLine) {p q : List Char}

theorem newline_not_mem : Lines.newline ∉ l.bytes := fun h =>
  l.unbroken (Utf8.mem_encode (by decide) h)

theorem ofChars_text (h : l.text.toList = p ++ q) :
    (WatchEvent.reader Erased.reader).ofChars (p ++ q) = .ok l.event := by
  rw [← h]
  exact l.reads

theorem item?_of_blank (h : l.text.toList = p ++ q) (hq : Json.Token.Blank q) :
    TextLine.item? (.ok (String.ofList p)) = some (.ok l.event) := by
  refine TextLine.item?_of_event ?_
  rw [Json.Reader.ofText, String.toList_ofList]
  exact Json.Reader.ofChars_of_blank WatchEvent.closed_of_reader (l.ofChars_text h) hq

theorem item?_of_brokenOff (h : l.text.toList = p ++ q) (hq : ¬ Json.Token.Blank q)
    (hnumber : Json.Token.splitsNumber p q = false) :
    TextLine.item? (.ok (String.ofList p)) = none := by
  have hread : (WatchEvent.reader Erased.reader).ofText (String.ofList p) = .error .truncated := by
    rw [Json.Reader.ofText, String.toList_ofList]
    exact Json.Reader.ofChars_of_brokenOff WatchEvent.closed_of_reader (l.ofChars_text h)
      (WatchEvent.patient_reader Erased.patient_reader).toWaits hq hnumber
  unfold TextLine.item?
  dsimp only
  rw [hread]

theorem item?_ne_event (h : l.text.toList = p ++ q) (hq : ¬ Json.Token.Blank q)
    (e : WatchEvent Erased) : TextLine.item? (.ok (String.ofList p)) ≠ some (.ok e) := by
  have hread : ∀ e, (WatchEvent.reader Erased.reader).ofText (String.ofList p) ≠ .ok e := by
    intro e
    rw [Json.Reader.ofText, String.toList_ofList]
    exact Json.Reader.ofChars_ne_ok WatchEvent.closed_of_reader (l.ofChars_text h) hq e
  unfold TextLine.item?
  dsimp only
  split
  · rename_i e' he'
    exact absurd he' (hread e')
  · exact nofun
  · split <;> exact nofun

theorem isBlank_return : Json.IsBlank '\r' :=
  .inr (.inr (.inr rfl))

/-- A number does not go on with a carriage return. -/
theorem splitsNumber_return (p q : List Char) :
    Json.Token.splitsNumber p ('\r' :: q) = false := by
  unfold Json.Token.splitsNumber
  split
  · rename_i n c _ hc
    cases hc
    have hpush : n.push? '\r' = none := by
      unfold Json.Token.NumberState.push?
      split <;> simp
    rw [hpush]
    rfl
  · rfl

/-- A whole line says its event, with or without a carriage return. -/
theorem item?_ofBytes (l : EventLine) :
    TextLine.item? (TextLine.ofBytes l.bytes) = some (.ok l.event) := by
  rw [bytes, TextLine.ofBytes_encode]
  rcases Lines.trimText_cases l.text.toList with htrim | htrim
  · refine l.item?_of_blank (q := []) ?_ (List.forall_mem_nil _)
    rw [htrim, List.append_nil]
  · exact l.item?_of_blank htrim (List.forall_mem_singleton.mpr isBlank_return)

/-- A carriage return in front of the cut counts as behind it. -/
theorem exists_trimText (h : l.text.toList = p ++ q) :
    ∃ q', l.text.toList = Lines.trimText p ++ q' ∧
      (Json.Token.Blank q' ↔ Json.Token.Blank q) ∧
      (Json.Token.splitsNumber p q = false →
        Json.Token.splitsNumber (Lines.trimText p) q' = false) := by
  rcases Lines.trimText_cases p with htrim | htrim
  · rw [htrim]
    exact ⟨q, h, Iff.rfl, id⟩
  -- the carriage return is a blank, and no number goes on with it
  · refine ⟨'\r' :: q, ?_, ?_, fun _ => splitsNumber_return _ q⟩
    · rw [h]
      conv_lhs => rw [htrim]
      rw [List.append_assoc, List.singleton_append]
    · exact List.forall_mem_cons.trans (and_iff_right isBlank_return)

/-- What a line leaves that ends behind a character. -/
theorem leaves_encode (h : l.text.toList = p ++ q) :
    l.Leaves (Utf8.encode p) (TextLine.item? (TextLine.ofBytes (Utf8.encode p))).toList := by
  obtain ⟨q', hq', hblank, hsplits⟩ := l.exists_trimText h
  rw [TextLine.ofBytes_encode]
  by_cases hq : Json.Token.Blank q
  · rw [l.item?_of_blank hq' (hblank.mpr hq)]
    exact .event h hq
  · have hq'' := fun hb => hq (hblank.mp hb)
    cases hnumber : Json.Token.splitsNumber p q with
    | false =>
      rw [l.item?_of_brokenOff hq' hq'' (hsplits hnumber)]
      exact .nothing h hq hnumber
    | true =>
      refine .number h hq hnumber ?_
      cases hitem : TextLine.item? (.ok (String.ofList (Lines.trimText p))) with
      | none => exact .inl rfl
      | some i =>
        cases i with
        | ok e => exact absurd hitem (l.item?_ne_event hq' hq'' e)
        | error x => exact .inr ⟨x, rfl⟩

/-- What a line leaves that ends anywhere. -/
theorem leaves_of_part {part : List UInt8} (h : part <+: l.bytes) :
    l.Leaves part (TextLine.item? (TextLine.ofBytes part)).toList := by
  rcases Utf8.prefix_encode h with ⟨p, q, hp, rfl⟩ | ⟨p, c, q, as, hp, rfl, has⟩
  · exact l.leaves_encode hp
  · rw [TextLine.ofBytes_of_splits p has]
    exact .character hp has

end EventLine

/-! ### Bodies that are cut -/

/-- The stream of a body of event lines, and of what is left behind them. -/
theorem EventStream.ofBody_of_events {b : Body} {lines : List EventLine} {rest : List UInt8}
    (h : Lines.split b.pieces.flatten = (lines.map EventLine.bytes, rest)) :
    ofBody b = ⟨lines.map (fun l => .ok l.event) ++
      (TextLine.ofPieces rest b.ending []).1.filterMap TextLine.item?,
      (TextLine.ofPieces rest b.ending []).2⟩ := by
  have htexts : (Lines.split b.pieces.flatten).1.map TextLine.ofBytes =
      (lines.map fun l => String.ofList (Lines.trimText l.text.toList)).map Except.ok := by
    rw [h, List.map_map, List.map_map]
    exact List.map_congr_left fun l _ => TextLine.ofBytes_encode l.text.toList
  have hitems : ∀ l : EventLine,
      TextLine.item? (.ok (String.ofList (Lines.trimText l.text.toList))) = some (.ok l.event) := by
    intro l
    rw [← TextLine.ofBytes_encode]
    exact l.item?_ofBytes
  rw [ofBody_of_texts htexts, h, List.filterMap_map]
  simp only [Function.comp_def, hitems, List.filterMap_eq_map']

/-- **Cut watches.** A body of event lines that ends anywhere gives the events of the lines in
front of its end, and then what the line leaves in which it ends. -/
theorem Client.cut_watch_gives_events_before_cut {t : Transport} {res : Response}
    (h : t.Answers res) (hcode : isSuccess res.code = true) (call : Option String) (q : Request)
    (lines : List EventLine) (n : Nat)
    (hbody : res.body.pieces.flatten = (Lines.terminated (lines.map EventLine.bytes)).take n)
    (hend : res.body.ending = .complete) :
    ∃ before behind part left t', lines = before ++ behind ∧
      res.body.pieces.flatten = Lines.terminated (before.map EventLine.bytes) ++ part ∧
      Session.Gives (requestEvents call q) t ⟨before.map (fun l => .ok l.event) ++ left, true⟩ t' ∧
      (behind = [] ∧ part = [] ∧ left = [] ∨
        ∃ l behind', behind = l :: behind' ∧ part <+: l.bytes ∧ l.Leaves part left) := by
  obtain ⟨before, behind, part, rfl, htake, hpart⟩ := Lines.take_terminated EventLine.bytes lines n
  rw [htake] at hbody
  obtain ⟨t', hgives⟩ := gives_events h hcode call q
  have hnewline : Lines.newline ∉ part := by
    rcases hpart with ⟨-, rfl⟩ | ⟨l, -, -, hbegins⟩
    · exact List.not_mem_nil
    · exact fun hmem => l.newline_not_mem (hbegins.subset hmem)
  have hsplit : Lines.split res.body.pieces.flatten = (before.map EventLine.bytes, part) := by
    rw [hbody]
    refine Lines.split_terminated (fun line hline => ?_) hnewline
    obtain ⟨l, -, rfl⟩ := List.mem_map.mp hline
    exact l.newline_not_mem
  have hstream : EventStream.ofBody res.body.wrapped =
      ⟨before.map (fun l => .ok l.event) ++ (TextLine.item? (TextLine.ofBytes part)).toList,
        true⟩ := by
    rw [Body.wrapped_of_complete hend, EventStream.ofBody_of_events hsplit, hend,
      TextLine.items_of_rest]
    rfl
  rw [hstream] at hgives
  refine ⟨before, behind, part, _, t', rfl, hbody, hgives, ?_⟩
  rcases hpart with ⟨rfl, rfl⟩ | ⟨l, behind', rfl, hbegins⟩
  · exact .inl ⟨rfl, rfl, by decide +kernel⟩
  · exact .inr ⟨l, behind', rfl, hbegins, l.leaves_of_part hbegins⟩

/-- A line about an object whose name is not ASCII. -/
def EventLine.accented : EventLine where
  text := "\x7b\"type\":\"ADDED\",\"object\":\x7b\"metadata\":\x7b\"name\":\"é\"\x7d\x7d\x7d"
  event := .added ⟨none, .named "é", .fields []⟩
  unbroken := by decide +kernel
  reads := by decide +kernel

/-- Two lines, of which the second is cut inside the name of a member. -/
theorem Client.watch_cut_inside_a_member_name :
    let bs := (Lines.terminated [EventLine.accented.bytes, EventLine.accented.bytes]).take 60
    let t := Transport.serving bs
    let q : Request := ⟨.get, ⟨none, [], ['/'], none⟩, none, []⟩
    t.Answers ⟨200, .ofBytes bs⟩ ∧
      ∃ before behind part left t', [EventLine.accented, EventLine.accented] = before ++ behind ∧
        bs = Lines.terminated (before.map EventLine.bytes) ++ part ∧
        Session.Gives (requestEvents none q) t
          ⟨before.map (fun l => .ok l.event) ++ left, true⟩ t' ∧
        (behind = [] ∧ part = [] ∧ left = [] ∨
          ∃ l behind', behind = l :: behind' ∧ part <+: l.bytes ∧ l.Leaves part left) := by
  intro bs t q
  have hflatten : (Body.ofBytes bs).pieces.flatten = bs := by decide +kernel
  obtain ⟨before, behind, part, left, t', hlines, hbytes, hgives⟩ :=
    cut_watch_gives_events_before_cut (Transport.serving_answers bs) rfl none q
      [EventLine.accented, EventLine.accented] 60 hflatten rfl
  rw [hflatten] at hbytes
  exact ⟨Transport.serving_answers bs, before, behind, part, left, t', hlines, hbytes, hgives⟩

/-- One line that is cut inside of a character, and a failure in place of nothing. -/
theorem Client.watch_cut_inside_a_character_fails :
    let bs := EventLine.accented.bytes.take 47
    let q : Request := ⟨.get, ⟨none, [], ['/'], none⟩, none, []⟩
    ∃ stream t', Session.Gives (requestEvents none q) (.serving bs) stream t' ∧
      bs = (Lines.terminated [EventLine.accented.bytes]).take 47 ∧
      stream.items = [.error (.readEvents "Unable to decode input as UTF8")] := by
  intro bs q
  obtain ⟨stream, t', h, hitems⟩ := Session.exists_gives (t := .serving bs)
    (x := requestEvents none q)
    (fun stream => stream.items = [.error (.readEvents "Unable to decode input as UTF8")])
    (by decide +kernel)
  exact ⟨stream, t', h, by decide +kernel, of_decide_eq_true hitems⟩

end ClusterKit
