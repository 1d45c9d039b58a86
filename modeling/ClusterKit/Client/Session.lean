/-
# Sessions

A transport takes requests and gives each the next of its answers, or the last
answer when there are none left. Answering takes time, perhaps for ever. Calls
are made in a session, which carries the transport along; its clock shows how
long the calls so far have taken. A session has a deadline: an answer that comes
just then still counts, but no request is made from then on.

Key definitions: `Answer`, `Transport`, `Session`, `Session.send`, `Session.within`,
`Session.runFor`.
-/
import ClusterKit.Client.Body

namespace ClusterKit

/-- An answer to a request. -/
structure Response where
  code : Nat
  body : Body
  deriving DecidableEq

/-- What a transport does about a request: it answers after a while, it fails at
once, or it does neither, ever. -/
inductive Answer
  | response (delay : Span) (res : Response)
  | failure (e : ClientError)
  | never

/-- A request as it reaches a transport, and the name of the call it was made for. -/
structure SentRequest where
  request : Request
  call : Option String
  deriving DecidableEq

/-- A transport: why it takes no requests at all, its answers, the one that
follows them, what it has been sent, its clock, and when it is too late for a
request. -/
structure Transport where
  unready : Option String
  answers : List Answer
  lastAnswer : Answer
  sent : List SentRequest
  clock : Span
  deadline : Span

/-- A session with a server, in which a call may never come to an end. -/
abbrev Session := OptionT (StateM Transport)

namespace Session

/-- A failure of the transport that makes it useless. -/
def unreadyError (text : String) : ClientError :=
  .service ("buffered service failed: " ++ text)

/-- Hand a request to the transport, and wait for the answer. -/
def send (call : Option String) (r : Request) : ExceptT ClientError Session Response := do
  let t ← getThe Transport
  match t.unready with
  | some text => throw (unreadyError text)
  | none =>
    if t.deadline.millis ≤ t.clock.millis then liftM (failure : Session Response)
    else
      let answer := t.answers.head?.getD t.lastAnswer
      let t : Transport := { t with answers := t.answers.tail, sent := t.sent ++ [⟨r, call⟩] }
      set t
      match answer with
      | .never => liftM (failure : Session Response)
      | .failure e => throw e
      | .response delay res =>
        set { t with clock := ⟨t.clock.millis + delay.millis⟩ }
        return { res with body := res.body.wrapped }

/-- All bytes of a body. -/
def collect (b : Body) : ExceptT ClientError Session (List UInt8) :=
  match b.collect with
  | none => liftM (failure : Session (List UInt8))
  | some (.error e) => throw e
  | some (.ok bs) => return bs

/-- A call that fails once it has taken longer than `limit`. -/
def within (limit : Span) (call : ExceptT ClientError Session β) :
    ExceptT ClientError Session β :=
  ExceptT.mk <| OptionT.mk fun t =>
    let deadline : Span := ⟨t.clock.millis + limit.millis⟩
    let (result, t) := call.run.run t
    match result with
    | some a =>
      if t.clock.millis ≤ deadline.millis then (some a, t)
      else (some (.error (.timedOut limit)), { t with clock := deadline })
    | none => (some (.error (.timedOut limit)), { t with clock := deadline })

/-- A session of at most `limit` on a transport that has been sent nothing yet. -/
def runFor (limit : Span) (call : Session β) (t : Transport) : Option β × Transport :=
  let deadline : Span := ⟨t.clock.millis + limit.millis⟩
  let (result, t) := call.run { t with sent := [], deadline := deadline }
  (result.filter fun _ => t.clock.millis ≤ deadline.millis, t)

end Session
end ClusterKit
