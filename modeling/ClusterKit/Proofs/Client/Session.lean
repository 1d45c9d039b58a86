/-
# Calls that come to an end

A call in a session gives an answer, fails, or never ends. One that gives an
answer has done so in each of its steps, and what it has been sent is the next
answer of the transport. The first step that fails ends the whole call.

Key definitions: `Session.Gives`, `Session.Ends`.
Key theorems: `Session.gives_bind`, `Session.ends_bind`, `Session.gives_send`.
-/
import ClusterKit.Client.Session

namespace ClusterKit
namespace Session

/-- The call gives `b`, and leaves the transport as `t'`. -/
def Gives (x : ExceptT ClientError Session β) (t : Transport) (b : β) (t' : Transport) : Prop :=
  x.run.run t = (some (.ok b), t')

/-- The call comes to the outcome `r`, and leaves the transport as `t'`. -/
def Ends (x : ExceptT ClientError Session β) (t : Transport) (r : Except ClientError β)
    (t' : Transport) : Prop :=
  x.run.run t = (some r, t')

variable {x : ExceptT ClientError Session β} {f : β → ExceptT ClientError Session γ}
  {t t' : Transport} {b b' : β} {c : γ}

/-- The rest of a call goes on behind a step that gives an answer, and behind no other. -/
theorem run_bind (x : ExceptT ClientError Session β) (f : β → ExceptT ClientError Session γ)
    (t : Transport) :
    (x >>= f).run.run t =
      match x.run.run t with
      | (some (.ok b), u) => (f b).run.run u
      | (some (.error e), u) => (some (.error e), u)
      | (none, u) => (none, u) := by
  rw [ExceptT.run_bind, OptionT.run_bind]
  unfold Option.elimM
  show StateT.bind (OptionT.run x.run) _ t = _
  unfold StateT.bind
  cases x.run.run t with
  | mk o u =>
    match o with
    | none => rfl
    | some (.error e) => rfl
    | some (.ok b) => rfl

/-- What gives an answer as a whole gives one in each step. -/
theorem gives_bind (h : Gives (x >>= f) t c t') : ∃ b u, Gives x t b u ∧ Gives (f b) u c t' := by
  unfold Gives at h ⊢
  rw [run_bind] at h
  split at h
  · rename_i b u hx
    exact ⟨b, u, hx, h⟩
  · cases h
  · cases h

/-- Behind a step that gives an answer the rest decides. -/
theorem ends_bind {u : Transport} {r : Except ClientError γ} (h : Gives x t b u)
    (hf : Ends (f b) u r t') : Ends (x >>= f) t r t' := by
  unfold Gives at h
  unfold Ends
  rw [run_bind, h]
  exact hf

/-- A step that fails ends the whole. -/
theorem ends_bind_of_failure {e : ClientError} (h : Ends x t (.error e) t') :
    Ends (x >>= f) t (.error e) t' := by
  unfold Ends at h ⊢
  rw [run_bind, h]

/-- What gives an answer in each step gives one as a whole. -/
theorem gives_bind_of {u : Transport} (h : Gives x t b u) (hf : Gives (f b) u c t') :
    Gives (x >>= f) t c t' :=
  ends_bind h hf

theorem gives_pure : Gives (pure b) t b' t' ↔ b = b' ∧ t = t' := by
  constructor
  · intro h
    cases h
    exact ⟨rfl, rfl⟩
  · rintro ⟨rfl, rfl⟩
    rfl

theorem not_gives_throw {e : ClientError} : ¬ Gives (throw e) t b t' := by
  intro h
  cases h

theorem not_gives_failure : ¬ Gives (liftM (failure : Session β)) t b t' := by
  intro h
  cases h

theorem gives_get {u : Transport} (h : Gives (getThe Transport) t u t') : u = t ∧ t' = t := by
  cases h
  exact ⟨rfl, rfl⟩

/-- A request is answered by the next answer of the transport, of which the body is handed on
by the layer above. -/
theorem gives_send {call : Option String} {q : Request} {res : Response}
    (h : Gives (send call q) t res t') :
    ∃ delay res', t.answers.head?.getD t.lastAnswer = .response delay res' ∧
      res = { res' with body := res'.body.wrapped } := by
  obtain ⟨v, v', hget, hready⟩ := gives_bind h
  obtain ⟨rfl, rfl⟩ := gives_get hget
  split at hready
  · exact absurd hready not_gives_throw
  · split at hready
    · exact absurd hready not_gives_failure
    · obtain ⟨_, v, -, hanswer⟩ := gives_bind hready
      split at hanswer
      · exact absurd hanswer not_gives_failure
      · exact absurd hanswer not_gives_throw
      · rename_i delay res' hnext
        obtain ⟨_, _, -, hres⟩ := gives_bind hanswer
        obtain ⟨rfl, -⟩ := gives_pure.mp hres
        exact ⟨delay, res', hnext, rfl⟩

/-- A call gives an answer if its run shows one. -/
theorem exists_gives (P : β → Bool)
    (h : (x.run.run t).1.any (fun r => r.toOption.any P) = true) :
    ∃ b t', Gives x t b t' ∧ P b = true := by
  unfold Gives
  cases hx : x.run.run t with
  | mk o u =>
    rw [hx] at h
    match o with
    | none => cases h
    | some (.error e) => cases h
    | some (.ok b) => exact ⟨b, u, rfl, h⟩

end Session
end ClusterKit
