/-
# Streams of events survive the wire

A server that writes events, each as a line of JSON with its members in any order, and sends
the bytes in any pieces is understood: who watches gets exactly these events in their order
and then the end. This holds of all events that can be written, if the data of their objects
have no member that the object has of its own, and no more than a reader takes.

Key definition: `WatchEvent.WrittenAs`.
Key theorems: `EventLine.exists_lines`, `EventStream.ofBody_of_lines`,
`Client.event_streams_round_trip`.
-/
import ClusterKit.Proofs.Client.Statuses
import ClusterKit.Proofs.Wire.Recovered

namespace ClusterKit

/-- The text is one that the event is written as, the members of all its parts in any order. -/
def WatchEvent.WrittenAs (e : WatchEvent Erased) (text : String) : Prop :=
  ∃ w, e.toJson? Erased.toJson? = .ok w ∧ w.WrittenAs text

namespace EventLine

/-! ### Lines of written events -/

/-- A written event is a line that reads as the event. -/
theorem exists_line {e : WatchEvent Erased} {text : String} (he : e.Sendable)
    (h : e.WrittenAs text) : ∃ l : EventLine, l.text = text ∧ l.event = e := by
  obtain ⟨w, hw, hrecovers, hplain⟩ := WatchEvent.exists_written he
  obtain ⟨w', hw', htext⟩ := h
  obtain rfl : w' = w := Except.ok.inj (hw'.symm.trans hw)
  have hunbroken : '\n' ∉ text.toList :=
    fun hmem => absurd (htext.le_of_mem hplain _ hmem) (by decide)
  obtain ⟨v, hv, rfl⟩ := htext
  exact ⟨⟨v.render, e, hunbroken, hrecovers.ofText hplain hv⟩, rfl, rfl⟩

/-- So are the events of a list. -/
theorem exists_lines {es : List (WatchEvent Erased)} {texts : List String}
    (hes : ∀ e ∈ es, e.Sendable) (h : List.Forall₂ WatchEvent.WrittenAs es texts) :
    ∃ ls : List EventLine, ls.map (·.text) = texts ∧ ls.map (·.event) = es := by
  induction h with
  | nil => exact ⟨[], rfl, rfl⟩
  | cons hfirst _ ih =>
    obtain ⟨he, hrest⟩ := List.forall_mem_cons.mp hes
    obtain ⟨l, rfl, rfl⟩ := exists_line he hfirst
    obtain ⟨ls, rfl, rfl⟩ := ih hrest
    exact ⟨l :: ls, rfl, rfl⟩

end EventLine

/-- Every event that fits has a text. -/
theorem WatchEvent.exists_texts {es : List (WatchEvent Erased)} (hes : ∀ e ∈ es, e.Sendable) :
    ∃ texts, List.Forall₂ WatchEvent.WrittenAs es texts := by
  induction es with
  | nil => exact ⟨[], .nil⟩
  | cons e es ih =>
    obtain ⟨he, hes⟩ := List.forall_mem_cons.mp hes
    obtain ⟨w, hw, -⟩ := exists_written he
    obtain ⟨texts, htexts⟩ := ih hes
    exact ⟨w.render :: texts, .cons ⟨w, hw, Json.writtenAs_render w⟩ htexts⟩

/-! ### Bodies of lines -/

/-- A complete body of lines of events is the stream of these events, however it is cut. -/
theorem EventStream.ofBody_of_lines {b : Body} {ls : List EventLine}
    (h : b.pieces.flatten = Lines.terminated (ls.map EventLine.bytes))
    (hend : b.ending = .complete) : ofBody b = ⟨ls.map fun l => .ok l.event, true⟩ := by
  have hlines : ∀ line ∈ ls.map EventLine.bytes, Lines.newline ∉ line := by
    intro line hline
    obtain ⟨l, -, rfl⟩ := List.mem_map.mp hline
    exact l.newline_not_mem
  have hsplit : Lines.split b.pieces.flatten = (ls.map EventLine.bytes, []) := by
    rw [h, ← List.append_nil (Lines.terminated _), Lines.split_terminated hlines List.not_mem_nil]
  rw [ofBody_of_events hsplit, hend]
  simp [TextLine.ofPieces, Lines.last?]

namespace Client

open Session (Gives)

/-- **Streams of events.** Any events that fit can be written. However they are written, each
is one line, and who watches gets from the lines, sent in any pieces, these events in their order
and nothing else. -/
theorem event_streams_round_trip {es : List (WatchEvent Erased)} (hes : ∀ e ∈ es, e.Sendable) :
    (∃ texts, List.Forall₂ WatchEvent.WrittenAs es texts) ∧
    ∀ texts, List.Forall₂ WatchEvent.WrittenAs es texts →
      (∀ text ∈ texts, '\n' ∉ text.toList) ∧
      ∀ (t : Transport) (res : Response), t.Answers res → isSuccess res.code = true →
        res.body.pieces.flatten =
          Lines.terminated (texts.map fun text => Utf8.encode text.toList) →
        res.body.ending = .complete → ∀ call q,
          ∃ t', Gives (requestEvents call q) t ⟨es.map .ok, true⟩ t' := by
  refine ⟨WatchEvent.exists_texts hes, fun texts htexts => ?_⟩
  obtain ⟨ls, rfl, rfl⟩ := EventLine.exists_lines hes htexts
  refine ⟨fun text htext => ?_, fun t res ht hcode hbody hend call q => ?_⟩
  · obtain ⟨l, -, rfl⟩ := List.mem_map.mp htext
    exact l.unbroken
  · rw [List.map_map] at hbody
    obtain ⟨t', hgives⟩ := gives_events ht hcode call q
    rw [Body.wrapped_of_complete hend, EventStream.ofBody_of_lines hbody hend] at hgives
    refine ⟨t', ?_⟩
    rw [List.map_map]
    exact hgives

/-- Events of an object, of how far the watch has got and of an error, in two pieces of which the
first ends inside of a character. The first event has its members in an order of their own. -/
theorem event_stream_cut_inside_a_character :
    let spec : Json := .fields [("replicas", .ofInt (-3))]
    let o : Erased := ⟨some ⟨"v1", "Scale"⟩, .named "é", .fields [("spec", spec)]⟩
    let b : Bookmark := ⟨⟨"v1", "Scale"⟩, "7"⟩
    let s : Status := ⟨"Failure", "too \"old\"\n", "Expired", 410, none⟩
    let first : Json := .fields [("type", .text "ADDED"), ("object", .fields [("spec", spec),
      ("kind", .text "Scale"), ("metadata", o.metadata.toJson), ("apiVersion", .text "v1")])]
    let second : Json := .fields [("object", b.toJson), ("type", .text "BOOKMARK")]
    let texts := [first.render, second.render, s.eventJson.render]
    let bs := Lines.terminated (texts.map fun text => Utf8.encode text.toList)
    let t : Transport := ⟨none, [], .response ⟨0⟩ ⟨200, [bs.take 85, bs.drop 85], .complete, none⟩,
      [], ⟨0⟩, ⟨1⟩⟩
    Utf8.decode? (bs.take 85) = none ∧
      ∃ t', Gives (requestEvents none ⟨.get, ⟨none, [], ['/'], none⟩, none, []⟩) t
        ⟨[.ok (.added o), .ok (.bookmark b), .ok (.error s)], true⟩ t' := by
  intro spec o b s first second texts bs t
  have ho : o.Fits := by
    refine ⟨⟨_, rfl⟩, ?_, by decide, ⟨?_, by decide⟩, nofun⟩
    · simp [o, spec, Json.Canonical, Json.CanonicalMembers, Entries.Ascending, Json.ofInt]
    · simp [o, spec, Json.IsWhole, Json.MembersWhole, Json.ofInt]
  have hs : s.Fits := ⟨by decide, by rintro d ⟨⟩⟩
  have hes : ∀ e ∈ [WatchEvent.added o, .bookmark b, .error s], e.Sendable := by
    simp only [List.forall_mem_cons]
    exact ⟨ho, trivial, hs, List.forall_mem_nil _⟩
  have hfirst : (WatchEvent.added o).WrittenAs first.render := by
    refine ⟨_, rfl, first, .fields (.swap _ _ _) (.cons (.fields ?_ (Json.reorderedMembers_refl _))
      (.cons (.text _) .nil)), rfl⟩
    decide
  have htexts : List.Forall₂ WatchEvent.WrittenAs [.added o, .bookmark b, .error s] texts :=
    .cons hfirst (.cons ⟨_, rfl, Json.writtenAs_render _⟩
      (.cons ⟨_, rfl, Json.writtenAs_render _⟩ .nil))
  obtain ⟨-, hstream⟩ := event_streams_round_trip hes
  have hbody : [bs.take 85, bs.drop 85].flatten = bs := by
    rw [List.flatten_cons, List.flatten_singleton, List.take_append_drop]
  refine ⟨by decide +kernel, ?_⟩
  exact (hstream texts htexts).2 t _ ⟨rfl, Nat.zero_lt_one, ⟨0⟩, rfl⟩ rfl hbody rfl none _

end Client
end ClusterKit
