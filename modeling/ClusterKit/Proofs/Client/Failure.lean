/-
# Answers that are failures

An answer with a code of a failure makes each call fail with the status that it
reports, whatever its body is, as long as this is text. Calls that read an answer as
a whole take any other code for a success, those of redirects too. A watch does not:
it fails with every code but those of success.

Key definitions: `Transport.AnswersText`, `ServerCall`, `ServerCall.outcome`.
Key theorems: `Client.ends_requestText`, `Client.ends_requestEvents`, `ServerCall.ends_run`,
`Client.answers_fail_by_their_code`.
-/
import ClusterKit.Catalog.BuiltIn
import ClusterKit.Client.Api
import ClusterKit.Proofs.Client.Stream
import ClusterKit.Proofs.Text.Utf8

namespace ClusterKit

open Session (Ends Gives ends_bind ends_bind_of_failure gives_bind_of)

/-! ### Answers that are text -/

/-- The transport answers the next request in time, after `delay`, with `code` and with a body
that is complete and is `text`. -/
structure Transport.AnswersText (t : Transport) (delay : Span) (code : Nat) (text : String) :
    Prop where
  ready : t.unready = none
  timely : t.clock.millis < t.deadline.millis
  next : ∃ body : Body, t.answers.head?.getD t.lastAnswer = .response delay ⟨code, body⟩ ∧
    body.ending = .complete ∧ Utf8.decode? body.pieces.flatten = some text.toList

/-- The transport behind a request that was answered after `delay`. -/
def Transport.after (t : Transport) (call : Option String) (q : Request) (delay : Span) :
    Transport :=
  { t with
    answers := t.answers.tail
    sent := t.sent ++ [⟨q, call⟩]
    clock := ⟨t.clock.millis + delay.millis⟩ }

/-- A transport that gives this answer to every request. -/
def Transport.reporting (code : Nat) (text : String) : Transport :=
  ⟨none, [], .response ⟨0⟩ ⟨code, .ofBytes (Utf8.encode text.toList)⟩, [], ⟨0⟩, ⟨1⟩⟩

theorem Transport.reporting_answersText (code : Nat) (text : String) :
    (reporting code text).AnswersText ⟨0⟩ code text := by
  refine ⟨rfl, Nat.zero_lt_one, _, rfl, rfl, ?_⟩
  rw [Body.ofBytes_pieces, Utf8.decode?_encode]

namespace Client

variable {t : Transport} {delay : Span} {code : Nat} {text : String}

theorem gives_send_text (h : t.AnswersText delay code text) (call : Option String) (q : Request) :
    ∃ body : Body, Gives (Session.send call q) t ⟨code, body⟩ (t.after call q delay) ∧
      ∀ u, Gives (bodyText body) u text u := by
  obtain ⟨body, hnext, hcomplete, hdecode⟩ := h.next
  obtain ⟨unready, answers, lastAnswer, sent, clock, deadline⟩ := t
  obtain rfl : unready = none := h.ready
  refine ⟨body, gives_bind_of rfl ?_, fun u => ?_⟩
  · dsimp only
    rw [if_neg (Nat.not_le.mpr h.timely), hnext]
    dsimp only
    rw [Body.wrapped_of_complete hcomplete]
    unfold Gives
    rfl
  · have hcollect : Gives (Session.collect body) u body.pieces.flatten u := by
      unfold Session.collect Body.collect
      rw [hcomplete]
      rfl
    refine gives_bind_of hcollect ?_
    rw [hdecode]
    dsimp only
    rw [String.ofList_toList]
    rfl

/-! ### Requests -/

/-- The text of an answer is its body, unless its code is one of a failure. -/
theorem ends_requestText (h : t.AnswersText delay code text) (call : Option String) (q : Request) :
    Ends (requestText call q) t
      (if isFailure code then .error (.api (reportedStatus code text)) else .ok text)
      (t.after call q delay) := by
  obtain ⟨body, hsend, htext⟩ := gives_send_text h call q
  refine ends_bind hsend (ends_bind (htext _) ?_)
  dsimp only
  unfold checkCode
  cases isFailure code <;> rfl

/-- What a reader makes of a text. -/
def readText (reader : Json.Reader β) (text : String) : Except ClientError β :=
  match reader.ofText text with
  | .ok b => .ok b
  | .error e => .error (.unreadable e)

theorem ends_request {β : Type} (h : t.AnswersText delay code text) (reader : Json.Reader β)
    (call : Option String) (q : Request) :
    Ends (request reader call q) t
      (if isFailure code then .error (.api (reportedStatus code text)) else readText reader text)
      (t.after call q delay) := by
  have htext := ends_requestText h call q
  cases hcode : isFailure code with
  | true =>
    rw [hcode] at htext
    exact ends_bind_of_failure htext
  | false =>
    rw [hcode] at htext
    refine ends_bind htext ?_
    unfold readText
    cases reader.ofText text <;> rfl

/-- Events are only read from an answer of success. -/
theorem ends_requestEvents (h : t.AnswersText delay code text) (call : Option String)
    (q : Request) :
    if isSuccess code then
      ∃ stream, Gives (requestEvents call q) t stream (t.after call q delay)
    else
      Ends (requestEvents call q) t
        (.error (.api (if isFailure code then reportedStatus code text
          else .bare code Reason.unknown text)))
        (t.after call q delay) := by
  obtain ⟨body, hsend, htext⟩ := gives_send_text h call q
  cases hcode : isSuccess code with
  | true =>
    refine ⟨.ofBody body, gives_bind_of hsend ?_⟩
    dsimp only
    rw [hcode]
    rfl
  | false =>
    refine ends_bind hsend ?_
    dsimp only
    rw [hcode]
    refine ends_bind (htext _) ?_
    unfold checkCode
    cases isFailure code <;> rfl

end Client

/-! ### Calls -/

/-- A call on a server that reads its answer as a whole. -/
inductive ServerCall (α : Type)
  | get (name ns : String) (p : GetParams)
  | create (obj : α) (p : PostParams)
  | update (obj : α) (p : PostParams)
  | delete (name ns : String) (p : DeleteParams)
  | list (ns : String) (p : ListParams)
  | logs (name ns : String) (p : LogParams)

namespace ServerCall

/-- What the call gives. -/
def Result : ServerCall α → Type
  | get _ _ _ | create _ _ | update _ _ => α
  | delete _ _ _ => Unit
  | list _ _ => ObjectList α
  | logs _ _ _ => String

/-- Make the call. -/
def run (K : Kind α) (api : ServerApi) : (c : ServerCall α) → ExceptT ClientError Session c.Result
  | get name ns p => (api.calls K).get name ns p
  | create obj p => (api.calls K).create obj p
  | update obj p => (api.calls K).update obj p
  | delete name ns p => (api.calls K).delete name ns p
  | list ns p => (api.calls K).list ns p
  | logs name ns p => api.logs name ns p

/-- A request as part of a call. -/
def asked (q : Except RequestError Request) : Except ClientError Request :=
  q.mapError .request

/-- The request of the call. -/
def request (K : Kind α) (api : ServerApi) : ServerCall α → Except ClientError Request
  | get name ns p => asked (Request.get (api.resource.urlPath ns) name p)
  | create obj p => do
    let body ← ServerApi.payload K api.resource obj
    asked (Request.create (ServerApi.homePath K api.resource obj) p body)
  | update obj p => do
    let body ← ServerApi.payload K api.resource obj
    asked (Request.replace (ServerApi.homePath K api.resource obj)
      ((K.metadata obj).name.getD "") p body)
  | delete name ns p => asked (Request.delete (api.resource.urlPath ns) name p)
  | list ns p => asked (Request.list (api.resource.urlPath ns) p)
  | logs name ns p => asked (Request.logs (api.resource.urlPath ns) name p)

/-- The name under which the request of the call is sent. -/
def label : ServerCall α → String
  | get _ _ _ => "get"
  | create _ _ => "create"
  | update _ _ => "replace"
  | delete _ _ _ => "delete"
  | list _ _ => "list"
  | logs _ _ _ => "logs"

/-- What the call makes of the text of an answer. -/
def read (K : Kind α) : (c : ServerCall α) → String → Except ClientError c.Result
  | get _ _ _ => Client.readText K.reader
  | create _ _ => Client.readText K.reader
  | update _ _ => Client.readText K.reader
  | delete _ _ _ => fun _ => .ok ()
  | list _ _ => Client.readText (ObjectList.reader K.reader)
  | logs _ _ _ => .ok

/-- How long the call may take. -/
def limit? : ServerCall α → Option Span
  | list _ p => p.timeoutSpan
  | _ => none

/-- The outcome of a call, unless the answer takes longer than the call may. -/
def inTime (limit? : Option Span) (delay : Span) (r : Except ClientError β) :
    Except ClientError β :=
  match limit? with
  | some limit => if limit.millis < delay.millis then .error (.timedOut limit) else r
  | none => r

/-- What the call comes to when `text` is answered with `code` after `delay`. -/
def outcome (K : Kind α) (c : ServerCall α) (delay : Span) (code : Nat) (text : String) :
    Except ClientError c.Result :=
  inTime c.limit? delay <|
    if Client.isFailure code then .error (.api (Client.reportedStatus code text))
    else c.read K text

section

variable {K : Kind α} {api : ServerApi} {c : ServerCall α} {β : Type} {t t' : Transport}
  {r : Except RequestError Request} {f : Request → ExceptT ClientError Session β}
  {e : ClientError} {q : Request}

theorem ends_building_of_error (h : asked r = .error e) :
    Ends (ServerApi.building r >>= f) t (.error e) t := by
  cases r with
  | ok q => cases h
  | error d =>
    cases h
    exact ends_bind_of_failure rfl

theorem ends_building_of_ok {res : Except ClientError β} (h : asked r = .ok q)
    (hf : Ends (f q) t res t') : Ends (ServerApi.building r >>= f) t res t' := by
  cases r with
  | ok q =>
    cases h
    exact ends_bind rfl hf
  | error d => cases h

theorem ends_write_of_error {obj : α} {build : List UInt8 → Except RequestError Request}
    {call : String}
    (h : (ServerApi.payload K api.resource obj >>= fun body => asked (build body)) = .error e) :
    Ends (ServerApi.write K api.resource call obj build) t (.error e) t := by
  unfold ServerApi.write
  cases hbody : ServerApi.payload K api.resource obj with
  | error d =>
    rw [hbody] at h
    cases h
    rfl
  | ok body =>
    rw [hbody] at h
    exact ends_building_of_error h

theorem ends_write_of_ok {obj : α} {build : List UInt8 → Except RequestError Request}
    {call : String} {res : Except ClientError α}
    (h : (ServerApi.payload K api.resource obj >>= fun body => asked (build body)) = .ok q)
    (hf : Ends (Client.request K.reader (some call) q) t res t') :
    Ends (ServerApi.write K api.resource call obj build) t res t' := by
  unfold ServerApi.write
  cases hbody : ServerApi.payload K api.resource obj with
  | error d =>
    rw [hbody] at h
    cases h
  | ok body =>
    rw [hbody] at h
    exact ends_building_of_ok h hf

/-- A call with a limit comes to what it does without one, unless it takes longer. -/
theorem ends_within {x : ExceptT ClientError Session β} {res : Except ClientError β}
    (h : Ends x t res t') (limit : Span) :
    Ends (Session.within limit x) t
      (if t'.clock.millis ≤ t.clock.millis + limit.millis then res else .error (.timedOut limit))
      (if t'.clock.millis ≤ t.clock.millis + limit.millis then t'
        else { t' with clock := ⟨t.clock.millis + limit.millis⟩ }) := by
  unfold Ends at h ⊢
  unfold Session.within
  dsimp only [ExceptT.run, ExceptT.mk, OptionT.run, OptionT.mk] at h ⊢
  rw [h]
  dsimp only
  by_cases htime : t'.clock.millis ≤ t.clock.millis + limit.millis
  · rw [if_pos htime, if_pos htime, if_pos htime]
  · rw [if_neg htime, if_neg htime, if_neg htime]

theorem ends_inTime {x : ExceptT ClientError Session β} {res : Except ClientError β}
    {call : Option String} {delay : Span} (h : Ends x t res (t.after call q delay))
    (limit? : Option Span) :
    ∃ t', Ends (match limit? with | some limit => Session.within limit x | none => x) t
        (inTime limit? delay res) t' ∧ t'.sent = t.sent ++ [⟨q, call⟩] := by
  cases limit? with
  | none => exact ⟨_, h, rfl⟩
  | some limit =>
    have hwithin := ends_within h limit
    have hclock : (t.after call q delay).clock.millis = t.clock.millis + delay.millis := rfl
    unfold inTime
    dsimp only
    by_cases htime : limit.millis < delay.millis
    · have hlate : ¬ (t.after call q delay).clock.millis ≤ t.clock.millis + limit.millis := by
        omega
      rw [if_neg hlate, if_neg hlate] at hwithin
      rw [if_pos htime]
      exact ⟨_, hwithin, rfl⟩
    · have hearly : (t.after call q delay).clock.millis ≤ t.clock.millis + limit.millis := by
        omega
      rw [if_pos hearly, if_pos hearly] at hwithin
      rw [if_neg htime]
      exact ⟨_, hwithin, rfl⟩

/-- A call without a request fails, and the transport is sent nothing. -/
theorem ends_run_of_error (h : c.request K api = .error e) :
    Ends (c.run K api) t (.error e) t := by
  cases c with
  | get name ns p => exact ends_building_of_error h
  | create obj p => exact ends_write_of_error h
  | update obj p => exact ends_write_of_error h
  | delete name ns p => exact ends_building_of_error h
  | list ns p => exact ends_building_of_error h
  | logs name ns p => exact ends_building_of_error h

variable {delay : Span} {code : Nat} {text : String}

/-- A call that is answered with text comes to its outcome, by its one request. -/
theorem ends_run (h : t.AnswersText delay code text) (hq : c.request K api = .ok q) :
    ∃ t', Ends (c.run K api) t (c.outcome K delay code text) t' ∧
      t'.sent = t.sent ++ [⟨q, some c.label⟩] := by
  cases c with
  | get name ns p =>
    exact ⟨_, ends_building_of_ok hq (Client.ends_request h K.reader _ q), rfl⟩
  | create obj p => exact ⟨_, ends_write_of_ok hq (Client.ends_request h K.reader _ q), rfl⟩
  | update obj p => exact ⟨_, ends_write_of_ok hq (Client.ends_request h K.reader _ q), rfl⟩
  | delete name ns p =>
    have htext := Client.ends_requestText h (some "delete") q
    refine ⟨t.after (some "delete") q delay, ends_building_of_ok hq ?_, rfl⟩
    show Ends _ t (if Client.isFailure code then _ else _) _
    cases hcode : Client.isFailure code with
    | true =>
      rw [hcode] at htext
      exact ends_bind_of_failure htext
    | false =>
      rw [hcode] at htext
      exact ends_bind htext rfl
  | list ns p =>
    have hcall := Client.ends_request h (ObjectList.reader K.reader) (some "list") q
    obtain ⟨t', hends, hsent⟩ := ends_inTime hcall p.timeoutSpan
    exact ⟨t', ends_building_of_ok hq hends, hsent⟩
  | logs name ns p =>
    exact ⟨_, ends_building_of_ok hq (Client.ends_requestText h _ q), rfl⟩

end

end ServerCall

namespace Client

/-- What a failure reports is the status in its body, and for any other body the code and the
body itself. -/
theorem reportedStatus_cases (code : Nat) (text : String) :
    (∀ s, Status.reader.ofText text = .ok s → reportedStatus code text = s) ∧
    ((∀ s, Status.reader.ofText text ≠ .ok s) →
      ∃ reason, reportedStatus code text = .bare code reason text) := by
  unfold reportedStatus
  cases Status.reader.ofText text with
  | ok s =>
    refine ⟨fun s' h => Except.ok.inj h, fun h => ?_⟩
    exact absurd rfl (h s)
  | error e => exact ⟨nofun, fun _ => ⟨_, rfl⟩⟩

/-- **Answers that are failures.** When a request is answered with text, its code decides. With a
code from 400 to 599 the text of the answer, what is read of it, each call of the api and the
logs fail with the reported status, and so do events. With any other code the answer counts as
it is, but for events, which fail with every code outside of 200 to 299. -/
theorem answers_fail_by_their_code (K : Kind α) (api : ServerApi) {t : Transport} {delay : Span}
    {code : Nat} {text : String} (h : t.AnswersText delay code text) :
    (∀ call q, Ends (requestText call q) t
      (if isFailure code then .error (.api (reportedStatus code text)) else .ok text)
      (t.after call q delay)) ∧
    (∀ {β : Type} (reader : Json.Reader β) call q, Ends (request reader call q) t
      (if isFailure code then .error (.api (reportedStatus code text)) else readText reader text)
      (t.after call q delay)) ∧
    (∀ c : ServerCall α,
      (∀ e, c.request K api = .error e → Ends (c.run K api) t (.error e) t) ∧
      ∀ q, c.request K api = .ok q →
        ∃ t', Ends (c.run K api) t (c.outcome K delay code text) t' ∧
          t'.sent = t.sent ++ [⟨q, some c.label⟩]) ∧
    (∀ call q,
      if isSuccess code then
        ∃ stream, Gives (requestEvents call q) t stream (t.after call q delay)
      else
        Ends (requestEvents call q) t
          (.error (.api (if isFailure code then reportedStatus code text
            else .bare code Reason.unknown text)))
          (t.after call q delay)) ∧
    (∀ s, Status.reader.ofText text = .ok s → reportedStatus code text = s) ∧
    ((∀ s, Status.reader.ofText text ≠ .ok s) →
      ∃ reason, reportedStatus code text = .bare code reason text) := by
  refine ⟨ends_requestText h, ends_request h, fun c => ⟨?_, ?_⟩, ends_requestEvents h,
    reportedStatus_cases code text⟩
  · exact fun e hrefused => ServerCall.ends_run_of_error hrefused
  · exact fun q hq => ServerCall.ends_run h hq

/-- An answer that something is missing makes a get fail, and a watch too. -/
theorem missing_config_map_is_reported :
    let t : Transport := .reporting 404 "gone"
    let c : ServerCall ConfigMap := .get "a" "ns" .none
    let s : Status := .bare 404 "NotFound" "gone"
    (∃ t', Ends (c.run ConfigMap.asKind ⟨ConfigMap.resource⟩) t (.error (.api s)) t') ∧
      ∀ q, Ends (requestEvents none q) t (.error (.api s)) (t.after none q ⟨0⟩) := by
  intro t c s
  obtain ⟨-, -, hcalls, hevents, -⟩ := answers_fail_by_their_code ConfigMap.asKind
    ⟨ConfigMap.resource⟩ (Transport.reporting_answersText 404 "gone")
  have hreported : reportedStatus 404 "gone" = s := by decide +kernel
  have hq : c.request ConfigMap.asKind ⟨ConfigMap.resource⟩ =
      .ok ⟨.get, ⟨none, [], "/api/v1/namespaces/ns/configmaps/a".toList, none⟩, none, []⟩ := by
    decide +kernel
  obtain ⟨t', hrun, -⟩ := (hcalls c).2 _ hq
  refine ⟨⟨t', ?_⟩, fun q => ?_⟩
  · rw [← hreported]
    exact hrun
  · rw [← hreported]
    exact hevents none q

/-- The text of a redirect is given as if it were a success, while a watch of it fails. -/
theorem redirect_is_given_as_text :
    let t : Transport := .reporting 302 "moved"
    let q : Request := ⟨.get, .root, none, []⟩
    isSuccess 302 = false ∧
      Gives (requestText none q) t "moved" (t.after none q ⟨0⟩) ∧
      Ends (requestEvents none q) t (.error (.api (.bare 302 Reason.unknown "moved")))
        (t.after none q ⟨0⟩) := by
  intro t q
  have ht : t.AnswersText ⟨0⟩ 302 "moved" := Transport.reporting_answersText 302 "moved"
  exact ⟨rfl, ends_requestText ht none q, ends_requestEvents ht none q⟩

end Client
end ClusterKit
