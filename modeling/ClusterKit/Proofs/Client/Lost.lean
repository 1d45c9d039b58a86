/-
# Lines that are lost

Every line of a watch is reported, by one item each and in the order of the lines, as
long as it is a text and no line in front of it is none. Only a line in which the text
ends before its value does is passed over without a word, wherever it stands: it is
taken for the last one, of which the rest is still to come. Such a line is no JSON.

Key definitions: `TextLine.Tells`, `TextLine.BreaksOff`, `TextLine.Reported`.
Key theorem: `Client.watch_reports_every_finished_line`.
-/
import ClusterKit.Proofs.Client.Stream
import ClusterKit.Proofs.Wire.PatientEvent
import Mathlib.Data.List.Basic

namespace ClusterKit
namespace TextLine

/-! ### What a line is reported as -/

/-- The item says what the line holds: an event, a bare status, or something else. -/
inductive Tells (s : String) : RawItem → Prop
  | event {e : WatchEvent Erased} (h : (WatchEvent.reader Erased.reader).ofText s = .ok e) :
      Tells s (.ok e)
  | status {x : Json.ReadError} {st : Status}
      (h : (WatchEvent.reader Erased.reader).ofText s = .error x) (hx : x ≠ .truncated)
      (hst : Status.reader.ofText s = .ok st) : Tells s (.error (.api st))
  | unreadable {x : Json.ReadError}
      (h : (WatchEvent.reader Erased.reader).ofText s = .error x) (hx : x ≠ .truncated)
      (hst : ∀ st, Status.reader.ofText s ≠ .ok st) : Tells s (.error (.unreadable x))

/-- The text of the line ends before its value does, so that it is no JSON. -/
structure BreaksOff (s : String) : Prop where
  truncated : (WatchEvent.reader Erased.reader).ofText s = .error .truncated
  unfinished : (Json.Document.ofChars s.toList).root.Unfinished
  no_value : ∀ v, Json.parse s ≠ .ok v

/-- The items report the line by one item, unless it breaks off. -/
inductive Reported (s : String) : List RawItem → Prop
  | told {i : RawItem} (h : Tells s i) : Reported s [i]
  | lost (h : BreaksOff s) : Reported s []

theorem breaksOff_of_truncated {s : String}
    (h : (WatchEvent.reader Erased.reader).ofText s = .error .truncated) : BreaksOff s := by
  have hunfinished : (Json.Document.ofChars s.toList).root.Unfinished :=
    Json.Reader.unfinished_of_ofChars (WatchEvent.patient_reader Erased.patient_reader).honest h
  refine ⟨h, hunfinished, fun v hv => ?_⟩
  exact Json.Reader.value_ne_ok_of_unfinished hunfinished v (Json.Reader.ofChars_eq_ok.mp hv).1

/-- What a line says reports it. -/
theorem reported_item? (s : String) : Reported s (item? (.ok s)).toList := by
  unfold item?
  dsimp only
  cases h : (WatchEvent.reader Erased.reader).ofText s with
  | ok e => exact .told (.event h)
  | error x =>
    by_cases hx : x = .truncated
    · subst hx
      exact .lost (breaksOff_of_truncated h)
    · cases hst : Status.reader.ofText s with
      | ok st => simpa [hx] using Reported.told (.status h hx hst)
      | error y => simpa [hx] using Reported.told (.unreadable h hx (by rw [hst]; exact nofun))

/-- Each line is reported by what it says. -/
theorem reported_items (ss : List String) :
    List.Forall₂ Reported ss (ss.map fun s => (item? (.ok s)).toList) := by
  induction ss with
  | nil => exact .nil
  | cons s ss ih => exact .cons (reported_item? s) ih

end TextLine

/-- **Lost lines.** A watch that is answered with success reports the terminated lines in their
order by one item each, but for those that break off, and behind them there is at most one item
more. -/
theorem Client.watch_reports_every_finished_line {t : Transport} {res : Response}
    (h : t.Answers res) (hcode : isSuccess res.code = true) (call : Option String) (q : Request) :
    ∃ parts last ended t', Session.Gives (requestEvents call q) t ⟨parts.flatten ++ last, ended⟩ t' ∧
      List.Forall₂ TextLine.Reported res.body.delivered parts ∧ last.length ≤ 1 := by
  obtain ⟨t', hgives⟩ := gives_events h hcode call q
  obtain ⟨last, ended, hlast, hstream⟩ := EventStream.ofBody_eq res.body.wrapped
  have hdelivered : res.body.wrapped.delivered = res.body.delivered := by
    rw [Body.delivered, Body.delivered, Body.wrapped_pieces]
  rw [hstream, hdelivered, List.filterMap_eq_flatMap_toList, List.flatMap_def] at hgives
  exact ⟨_, last, ended, t', hgives, TextLine.reported_items res.body.delivered, hlast⟩

/-- A bare status, and a line that is no JSON at all. -/
theorem Client.watch_reports_a_status_and_a_word :
    let status : Json := .fields [("code", .ofNat 410), ("message", .text "too old"),
      ("reason", .text "Expired"), ("status", .text "Failure")]
    let bs := Lines.terminated [status.bytes, Utf8.encode ['w', 'o', 'r', 'd']]
    let t := Transport.serving bs
    let q : Request := ⟨.get, ⟨none, [], ['/'], none⟩, none, []⟩
    t.Answers ⟨200, .ofBytes bs⟩ ∧ isSuccess 200 = true ∧
      ∃ parts last ended t',
        Session.Gives (requestEvents none q) t ⟨parts.flatten ++ last, ended⟩ t' ∧
          List.Forall₂ TextLine.Reported [status.render, "word"] parts ∧ last.length ≤ 1 := by
  intro status bs t q
  have hdelivered : (Body.ofBytes bs).delivered = [status.render, "word"] := by decide +kernel
  rw [← hdelivered]
  exact ⟨Transport.serving_answers bs, rfl,
    watch_reports_every_finished_line (Transport.serving_answers bs) rfl none q⟩

/-- A line that breaks off is lost in front of another line too. -/
theorem Client.watch_loses_a_line_in_the_middle :
    let line := "\x7b\"type\":\"ADDED\""
    let v : Json := .fields [("type", .text "ADDED"),
      ("object", .fields [("metadata", .fields [("name", .text "a")])])]
    let bs := Lines.terminated [Utf8.encode line.toList, v.bytes]
    let q : Request := ⟨.get, ⟨none, [], ['/'], none⟩, none, []⟩
    ∃ stream t', Session.Gives (requestEvents none q) (.serving bs) stream t' ∧
      (Body.ofBytes bs).delivered = [line, v.render] ∧
      stream.items = [.ok (.added ⟨none, .named "a", .fields []⟩)] := by
  intro line v bs q
  obtain ⟨stream, t', h, hitems⟩ := Session.exists_gives (t := .serving bs)
    (x := requestEvents none q)
    (fun stream => stream.items = [.ok (.added ⟨none, .named "a", .fields []⟩)])
    (by decide +kernel)
  exact ⟨stream, t', h, by decide +kernel, of_decide_eq_true hitems⟩

end ClusterKit
