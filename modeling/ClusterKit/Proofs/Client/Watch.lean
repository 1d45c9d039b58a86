/-
# Foreign kinds in a watch

The watch of a client makes of each line of the answer what its event says. An
object that names a foreign kind ends it, and the cause names this kind, but only
if the object names its version too. One that names its kind alone counts as an
object without a type: it is restored like any other, and passed on.

Key definitions: `Body.lines`, `ForeignLine`.
Key theorems: `ServerApi.gives_watch`, `ForeignLine.ofItem_of_named`,
`ForeignLine.ofItem_of_unnamed`.
-/
import ClusterKit.Catalog.BuiltIn
import ClusterKit.Client.Api
import ClusterKit.Proofs.Client.Session
import ClusterKit.Proofs.Watch.Reading
import ClusterKit.Proofs.Wire.Payload

namespace ClusterKit

/-! ### The answer to a watch -/

/-- The lines of a body, up to the first failure. -/
def Body.lines (b : Body) : List TextLine :=
  (TextLine.ofPieces [] b.ending b.pieces).1

section

open Session (Gives gives_bind gives_pure gives_send not_gives_throw)

variable {t t' : Transport}

/-- The events of a watch are those in the next answer of the transport. -/
theorem Client.gives_requestEvents {call : Option String} {q : Request} {stream : EventStream}
    (h : Gives (requestEvents call q) t stream t') :
    ∃ delay res, t.answers.head?.getD t.lastAnswer = .response delay res ∧
      stream = .ofBody res.body.wrapped := by
  obtain ⟨res, u, hsend, hstream⟩ := gives_bind h
  obtain ⟨delay, res', hanswer, rfl⟩ := gives_send hsend
  split at hstream
  · obtain ⟨rfl, -⟩ := gives_pure.mp hstream
    exact ⟨delay, res', hanswer, rfl⟩
  · obtain ⟨text, v, -, hthrow⟩ := gives_bind hstream
    split at hthrow <;> exact absurd hthrow not_gives_throw

/-- A watch reads the lines of the next answer of the transport. -/
theorem ServerApi.gives_watch {K : Kind α} {api : ServerApi} {ns : String} {p : ListParams}
    {l : LiveWatcher α} (h : Gives ((api.calls K).watch ns p) t l t') :
    ∃ delay res ended, t.answers.head?.getD t.lastAnswer = .response delay res ∧
      l.watcher = .ofItems api.resource (res.body.wrapped.lines.filterMap TextLine.item?) ended := by
  obtain ⟨q, u, hq, hwatch⟩ := gives_bind h
  have hu : u = t := by
    unfold building at hq
    split at hq
    · exact (gives_pure.mp hq).2.symm
    · exact absurd hq not_gives_throw
  subst hu
  obtain ⟨stream, v, hstream, hlive⟩ := gives_bind hwatch
  obtain ⟨delay, res, hanswer, rfl⟩ := Client.gives_requestEvents hstream
  obtain ⟨rfl, -⟩ := gives_pure.mp hlive
  exact ⟨delay, res, _, hanswer, rfl⟩

end

/-! ### What a watch makes of an object -/

section

variable {K : Kind α} {r : ApiResource}

namespace Forwarded

/-- An event with an object is a change to what the object is narrowed to. -/
theorem ofItem_of_object {e : WatchEvent Erased} {o : Erased} (h : e.object? = some o) :
    ∃ change : α → Change α, (∀ a, (change a).object = a) ∧
      ofItem K r (.ok e) = ofNarrowed change (narrow K r o) := by
  cases e with
  | added o' =>
    obtain rfl := Option.some.inj h
    exact ⟨.added, fun _ => rfl, rfl⟩
  | modified o' =>
    obtain rfl := Option.some.inj h
    exact ⟨.modified, fun _ => rfl, rfl⟩
  | deleted o' =>
    obtain rfl := Option.some.inj h
    exact ⟨.deleted, fun _ => rfl, rfl⟩
  | bookmark b => cases h
  | error s => cases h

end Forwarded

end

/-! ### Lines with a foreign kind -/

theorem Json.Reader.root_of_ofText {read : Json.Reader β} {s : String} {b : β}
    (h : read.ofText s = .ok b) : read (Json.Document.ofChars s.toList).root = .ok b := by
  obtain ⟨v, hv, h⟩ := bind_eq_ok.mp h
  split at h
  · cases h
  · cases h
    exact hv

theorem TextLine.item?_of_event {s : String} {e : WatchEvent Erased}
    (h : (WatchEvent.reader Erased.reader).ofText s = .ok e) :
    TextLine.item? (.ok s) = some (.ok e) := by
  unfold item?
  dsimp only
  rw [h]

/-- A line that has an event with an object, of which the draft `d` has the text `k` at its
kind, other than that of the resource `r`. -/
structure ForeignLine (r : ApiResource) (s : String) (e : WatchEvent Erased) (o : Erased)
    (d : Json.Draft) (k : String) : Prop where
  event : (WatchEvent.reader Erased.reader).ofText s = .ok e
  object : e.object? = some o
  payload : WatchEvent.Carries (Json.Document.ofChars s.toList).root d
  kind : .scalar (.text k) ∈ d.named "kind"
  foreign : k ≠ r.kind

namespace ForeignLine

variable {K : Kind α} {r : ApiResource} {s : String} {e : WatchEvent Erased} {o : Erased}
  {d : Json.Draft} {k : String} (h : ForeignLine r s e o d k)

include h

theorem types_eq_some_iff (t : TypeMeta) : o.types = some t ↔ d.NamesType t :=
  WatchEvent.types_of_reader (Json.Reader.root_of_ofText h.event) h.object h.payload t

/-- A type that is named has the kind of the line. -/
theorem kind_of_types {t : TypeMeta} (ht : o.types = some t) : t.kind = k := by
  obtain ⟨-, hkind⟩ := (h.types_eq_some_iff t).mp ht
  have hmem := h.kind
  rw [hkind, List.mem_singleton] at hmem
  cases hmem
  rfl

/-- The line ends a watch if it names a version with its kind. -/
theorem ofItem_of_named {v : String} (hd : d.NamesType ⟨v, k⟩) :
    Forwarded.ofItem K r (.ok e) = .finish (.mismatch k) := by
  have htypes := (h.types_eq_some_iff ⟨v, k⟩).mpr hd
  obtain ⟨change, -, hitem⟩ := Forwarded.ofItem_of_object (K := K) (r := r) h.object
  rw [hitem, narrow_of_foreign htypes (.inl h.foreign)]
  rfl

/-- Otherwise it is taken for what it is restored to. -/
theorem ofItem_of_unnamed (hd : ¬ ∃ v, d.NamesType ⟨v, k⟩) :
    ∃ change : α → Change α, (∀ a, (change a).object = a) ∧
      Forwarded.ofItem K r (.ok e) = .ofNarrowed change (narrow.restored K o) := by
  have htypes : o.types = none := by
    cases ht : o.types with
    | none => rfl
    | some t =>
      have hnames := (h.types_eq_some_iff t).mp ht
      obtain rfl := h.kind_of_types ht
      exact absurd ⟨t.apiVersion, hnames⟩ hd
  obtain ⟨change, hobject, hitem⟩ := Forwarded.ofItem_of_object (K := K) (r := r) h.object
  rw [narrow_of_akin fun _ ht => nomatch htypes.symm.trans ht] at hitem
  exact ⟨change, hobject, hitem⟩

end ForeignLine

/-- A transport whose answer to every request is the line of a value. -/
def Transport.answering (v : Json) : Transport :=
  ⟨none, [], .response ⟨0⟩ ⟨200, .ofBytes v.bytes⟩, [], ⟨0⟩, ⟨1⟩⟩

namespace ServerApi

/-- **Foreign kinds.** A watch ends at a line with an object of a foreign kind, if not before, for
a mismatch that names this kind, and passes on nothing of it, provided that the object names its
version too. If it does not, only what it is restored to counts, and is passed on. -/
theorem foreign_kind_ends_watch_if_version_is_named (K : Kind α) (api : ServerApi) (ns : String)
    (p : ListParams) {t t' : Transport} {l : LiveWatcher α}
    (h : Session.Gives ((api.calls K).watch ns p) t l t') {delay : Span} {res : Response}
    (hanswer : t.answers.head?.getD t.lastAnswer = .response delay res)
    {pre post : List TextLine} {s : String}
    (hlines : res.body.wrapped.lines = pre ++ .ok s :: post)
    {e : WatchEvent Erased} {o : Erased} {d : Json.Draft} {k : String}
    (line : ForeignLine api.resource s e o d k) :
    let before := pre.filterMap TextLine.item?
    let passed := Forwarded.changes K api.resource before
    let cause := Forwarded.cause? K api.resource before
    ((∃ v, d.NamesType ⟨v, k⟩) → l.watcher.EndsFor K passed (cause.getD (.mismatch k))) ∧
    ((¬ ∃ v, d.NamesType ⟨v, k⟩) →
      (∀ x, K.restore o = .error x → l.watcher.EndsFor K passed (cause.getD (.narrowing x))) ∧
      ∀ a, K.restore o = .ok a → cause = none → ∃ c rest found w', c.object = a ∧
        l.watcher.readAll K = (passed ++ c :: rest, found, w')) := by
  intro before passed cause
  obtain ⟨delay', res', ended, hnext, hwatcher⟩ := gives_watch h
  obtain ⟨-, rfl⟩ := Answer.response.inj (hnext.symm.trans hanswer)
  rw [hlines, List.filterMap_append, List.filterMap_cons, TextLine.item?_of_event line.event]
    at hwatcher
  dsimp only at hwatcher
  have hends : ∀ c, Forwarded.ofItem K api.resource (.ok e) = .finish c →
      l.watcher.EndsFor K passed (cause.getD c) := by
    intro c hitem
    have hcause := Forwarded.cause?_append_finish before (post.filterMap TextLine.item?) hitem
    have hend := Watcher.endsFor_of_cause? hcause ended
    rw [Forwarded.changes_append_finish _ _ hitem, ← hwatcher] at hend
    exact hend
  refine ⟨fun ⟨v, hd⟩ => hends _ (line.ofItem_of_named hd), fun hd => ?_⟩
  obtain ⟨change, hobject, hitem⟩ := line.ofItem_of_unnamed (K := K) hd
  unfold narrow.restored at hitem
  refine ⟨fun x hx => ?_, fun a ha hcause => ?_⟩
  · rw [hx] at hitem
    exact hends _ hitem
  · rw [ha] at hitem
    obtain ⟨found, w', hread, -⟩ := Watcher.readAll_changes K api.resource
      (before ++ .ok e :: post.filterMap TextLine.item?) ended
    rw [Forwarded.changes_append_pass _ hcause hitem, ← hwatcher] at hread
    exact ⟨change a, _, found, w', hobject a, hread⟩

/-- A secret that names its version ends a watch of config maps. -/
theorem named_secret_ends_watch_of_config_maps :
    let api : ServerApi := ⟨ConfigMap.resource⟩
    let secret : Json := .fields [("apiVersion", .text "v1"), ("kind", .text "Secret"),
      ("metadata", .fields [("name", .text "a")])]
    let v : Json := .fields [("type", .text "ADDED"), ("object", secret)]
    ∃ l t' e o, Session.Gives ((api.calls ConfigMap.asKind).watch "x" .none) (.answering v) l t' ∧
      ForeignLine api.resource v.render e o secret.toDraft "Secret" ∧
      secret.toDraft.NamesType ⟨"v1", "Secret"⟩ ∧
      l.watcher.EndsFor ConfigMap.asKind [] (.mismatch "Secret") := by
  intro api secret v
  obtain ⟨l, t', h, -⟩ := Session.exists_gives (t := .answering v)
    (x := (api.calls ConfigMap.asKind).watch "x" .none) (fun _ => true) (by decide +kernel)
  have hnames : secret.toDraft.NamesType ⟨"v1", "Secret"⟩ := ⟨rfl, rfl⟩
  have line : ForeignLine api.resource v.render
      (.added ⟨some ⟨"v1", "Secret"⟩, .named "a", .fields []⟩) _ secret.toDraft "Secret" :=
    ⟨by decide +kernel, rfl, .inl (by rw [Json.render, String.toList_ofList]; rfl),
      List.mem_singleton_self _, by decide⟩
  have hlines : (Body.ofBytes v.bytes).wrapped.lines = [] ++ .ok v.render :: [] := by
    decide +kernel
  obtain ⟨hnamed, -⟩ := foreign_kind_ends_watch_if_version_is_named ConfigMap.asKind api "x" .none
    h rfl hlines line
  exact ⟨l, t', _, _, h, line, hnames, hnamed ⟨"v1", hnames⟩⟩

/-- A secret that names no version is passed on in a watch of config maps. -/
theorem unnamed_secret_is_passed_on_as_config_map :
    let api : ServerApi := ⟨ConfigMap.resource⟩
    let secret : Json := .fields [("kind", .text "Secret"),
      ("metadata", .fields [("name", .text "a")])]
    let v : Json := .fields [("type", .text "ADDED"), ("object", secret)]
    ∃ l t' e o, Session.Gives ((api.calls ConfigMap.asKind).watch "x" .none) (.answering v) l t' ∧
      (Body.ofBytes v.bytes).wrapped.lines = [.ok v.render] ∧
      ForeignLine api.resource v.render e o secret.toDraft "Secret" ∧
      (l.watcher.readAll ConfigMap.asKind).1 = [.added ⟨.named "a", none, none, none⟩] ∧
      (l.watcher.readAll ConfigMap.asKind).2.2.termination = some .closed := by
  intro api secret v
  obtain ⟨l, t', h, hread⟩ := Session.exists_gives (t := .answering v)
    (x := (api.calls ConfigMap.asKind).watch "x" .none)
    (fun l => (l.watcher.readAll ConfigMap.asKind).1 = [.added ⟨.named "a", none, none, none⟩] ∧
      (l.watcher.readAll ConfigMap.asKind).2.2.termination = some .closed) (by decide +kernel)
  have line : ForeignLine api.resource v.render (.added ⟨none, .named "a", .fields []⟩) _
      secret.toDraft "Secret" :=
    ⟨by decide +kernel, rfl, .inl (by rw [Json.render, String.toList_ofList]; rfl),
      List.mem_singleton_self _, by decide⟩
  exact ⟨l, t', _, _, h, by decide +kernel, line, of_decide_eq_true hread⟩

end ServerApi
end ClusterKit
