/-
# The journal of a cluster

Reactors that go by rules are registered with a cluster at any time, between calls
through apis of any kinds. Each call that gets there is one action: the first
reactor decides it that does not pass on it, of those in front the newest, then the
tracker, and never one behind it. The action goes into the journal whatever its
outcome. What is left to the tracker is all that changes it, so doing this again, as
the journal has it, on the tracker of the beginning leads to the tracker there is.

Key definitions: `Clientset.Move`, `Clientset.moved`, `Clientset.recorded`,
`FakeApi.Request.answer`.
Key theorems: `FakeApi.Request.answer_eq`, `Clientset.hasRules_moved`,
`Clientset.tracker_moved`, `Clientset.first_answer_decides`.
-/
import ClusterKit.Proofs.Fake.Chain
import ClusterKit.Proofs.Fake.Told

namespace ClusterKit

variable {α : Type}

/-! ### Requests as actions -/

namespace FakeApi

namespace Request

variable (K : Kind α) (api : FakeApi)

/-- The action that a request is; one whose object cannot be erased is none. -/
def action? : Request α → Option Action
  | .get name ns _ => some (api.action ns (.get name))
  | .create obj p => (K.erase api.resource obj).toOption.map fun o =>
      api.action ((K.metadata obj).ns.getD "") (.create o p)
  | .update obj p => (K.erase api.resource obj).toOption.map fun o =>
      api.action ((K.metadata obj).ns.getD "") (.update o p)
  | .delete name ns p => some (api.action ns (.delete name p))
  | .list ns p => some (api.action ns (.list p))
  | .watch ns p => some (api.action ns (.watch p))
  | .seed _ => none

/-- The answer of a cluster to a request. -/
def answer (c : Clientset) : Request α → Answer α (LiveWatcher α)
  | .get name ns p => .object (((api.calls K).get name ns p).run c).1
  | .create obj p => .object (((api.calls K).create obj p).run c).1
  | .update obj p => .object (((api.calls K).update obj p).run c).1
  | .delete name ns p => .done (((api.calls K).delete name ns p).run c).1
  | .list ns p => .list (((api.calls K).list ns p).run c).1
  | .watch ns p => .opened (((api.calls K).watch ns p).run c).1
  | .seed _ => .nothing

/-- The answer to a request if the actions have the given outcomes. -/
def answerBy (reply : Action → Except ClientError Reply)
    (source : Action → Except ClientError RawSource) : Request α → Answer α (LiveWatcher α)
  | .get name ns _ => .object ((reply (api.action ns (.get name))).bind (typed K "get"))
  | .create obj p => .object (match K.erase api.resource obj with
    | .error e => .error (.misfit e)
    | .ok o => (reply (api.action ((K.metadata obj).ns.getD "") (.create o p))).bind
        (typed K "create"))
  | .update obj p => .object (match K.erase api.resource obj with
    | .error e => .error (.misfit e)
    | .ok o => (reply (api.action ((K.metadata obj).ns.getD "") (.update o p))).bind
        (typed K "update"))
  | .delete name ns p => .done ((reply (api.action ns (.delete name p))).bind deleted)
  | .list ns p => .list ((reply (api.action ns (.list p))).bind (typedList K))
  | .watch ns p => .opened ((source (api.action ns (.watch p))).map
      (LiveWatcher.ofSource api.resource))
  | .seed _ => .nothing

end Request
end FakeApi

namespace Clientset

/-- What becomes of a cluster by an action. -/
def acted (c : Clientset) (a : Action) : Clientset :=
  if a.isWatch then (c.invokeWatch a).2 else (c.invoke a).2

end Clientset

namespace FakeApi.Request

variable (K : Kind α) (api : FakeApi) (c : Clientset)

/-- Only the outcome of a request's own action counts for its answer. -/
theorem answerBy_congr {q : Request α} {reply reply' : Action → Except ClientError Reply}
    {source source' : Action → Except ClientError RawSource}
    (hreply : ∀ a, a.isWatch = false → reply a = reply' a)
    (hsource : ∀ a, a.isWatch = true → source a = source' a) :
    q.answerBy K api reply source = q.answerBy K api reply' source' := by
  cases q with
  | get name ns p => rw [answerBy, answerBy, hreply _ rfl]
  | create obj p =>
    rw [answerBy, answerBy]
    cases K.erase api.resource obj with
    | error e => rfl
    | ok o => dsimp only; rw [hreply _ rfl]
  | update obj p =>
    rw [answerBy, answerBy]
    cases K.erase api.resource obj with
    | error e => rfl
    | ok o => dsimp only; rw [hreply _ rfl]
  | delete name ns p => rw [answerBy, answerBy, hreply _ rfl]
  | list ns p => rw [answerBy, answerBy, hreply _ rfl]
  | watch ns p => rw [answerBy, answerBy, hsource _ rfl]
  | seed obj => rfl

theorem run_invoke_acted {β : Type} {a : Action} (f : Reply → Except ClientError β)
    (ha : a.isWatch = false) :
    (do let r ← invoke a; f r : ExceptT ClientError (StateM Clientset) β).run c =
      ((c.invoke a).1.bind f, c.acted a) := by
  rw [run_invoke, Clientset.acted, ha, if_neg Bool.false_ne_true]

/-- A write of an object that can be erased is its action, and one of any other fails before. -/
theorem run_write_acted (verb : String) (obj : α) (deed : Erased → Deed)
    (hdeed : ∀ o ns, (api.action ns (deed o)).isWatch = false) :
    ((api.write K verb obj deed).run c).1 = (match K.erase api.resource obj with
      | .error e => .error (.misfit e)
      | .ok o => (c.invoke (api.action ((K.metadata obj).ns.getD "") (deed o))).1.bind
          (typed K verb)) ∧
    ((api.write K verb obj deed).run c).2 = ((K.erase api.resource obj).toOption.map fun o =>
      api.action ((K.metadata obj).ns.getD "") (deed o)).elim c c.acted := by
  rw [run_write]
  cases K.erase api.resource obj with
  | error e => exact ⟨rfl, rfl⟩
  | ok o =>
    refine ⟨rfl, ?_⟩
    show (c.invoke _).2 = c.acted _
    rw [Clientset.acted, hdeed, if_neg Bool.false_ne_true]

/-- A request that is no seed is answered by what is made of the outcome of its action, and
does to the cluster what the action does. -/
theorem answer_eq {q : Request α} (hq : q.isSeed = false) :
    q.answer K api c = q.answerBy K api (fun a => (c.invoke a).1) (fun a => (c.invokeWatch a).1) ∧
      q.run K api c = (q.action? K api).elim c c.acted := by
  cases q with
  | get name ns p =>
    have hrun := run_invoke_acted c (a := api.action ns (.get name)) (typed K "get") rfl
    exact ⟨congrArg Answer.object (congrArg Prod.fst hrun), congrArg Prod.snd hrun⟩
  | create obj p =>
    obtain ⟨hanswer, hcluster⟩ := run_write_acted K api c "create" obj (.create · p)
      fun _ _ => rfl
    exact ⟨congrArg Answer.object hanswer, hcluster⟩
  | update obj p =>
    obtain ⟨hanswer, hcluster⟩ := run_write_acted K api c "update" obj (.update · p)
      fun _ _ => rfl
    exact ⟨congrArg Answer.object hanswer, hcluster⟩
  | delete name ns p =>
    have hrun := run_invoke_acted c (a := api.action ns (.delete name p)) deleted rfl
    exact ⟨congrArg Answer.done (congrArg Prod.fst hrun), congrArg Prod.snd hrun⟩
  | list ns p =>
    have hrun := run_invoke_acted c (a := api.action ns (.list p)) (typedList K) rfl
    exact ⟨congrArg Answer.list (congrArg Prod.fst hrun), congrArg Prod.snd hrun⟩
  | watch ns p =>
    have hrun := run_watch K api ns p c
    exact ⟨congrArg Answer.opened (congrArg Prod.fst hrun), congrArg Prod.snd hrun⟩
  | seed obj => cases hq

end FakeApi.Request

/-! ### Moves -/

namespace Clientset

/-- What is done with a cluster: a reactor by a rule is registered, in front of the others or
behind them, a request is made through an api, or someone sees to the receiver of a watch. -/
inductive Move : Type 1
  | append (verb resource : String) (f : Action → Reaction Reply)
  | prepend (verb resource : String) (f : Action → Reaction Reply)
  | appendWatch (resource : String) (f : Action → Reaction RawSource)
  | prependWatch (resource : String) (f : Action → Reaction RawSource)
  | call {α : Type} (K : Kind α) (api : FakeApi) (q : FakeApi.Request α) (hq : q.isSeed = false)
  | attend (d : Tracker.Call) (hd : d.subscription?.isSome = true)

namespace Move

/-- The cluster after a move; a pattern of an unknown verb is a panic that leaves it as it is. -/
def run (c : Clientset) : Move → Clientset
  | .append verb resource f => (c.append verb resource (.rule f)).toOption.getD c
  | .prepend verb resource f => (c.prepend verb resource (.rule f)).toOption.getD c
  | .appendWatch resource f => c.appendWatch resource (.rule f)
  | .prependWatch resource f => c.prependWatch resource (.rule f)
  | .call K api q _ => q.run K api c
  | .attend d _ => { c with tracker := (c.tracker.perform d).2 }

/-- The rule that goes behind the others. -/
def appended? : Move → Option (Rule Reply)
  | .append verb resource f => (Pattern.make verb resource).toOption.map (·, f)
  | _ => none

/-- The rule that goes in front of the others. -/
def prepended? : Move → Option (Rule Reply)
  | .prepend verb resource f => (Pattern.make verb resource).toOption.map (·, f)
  | _ => none

/-- The rule for watches that goes behind the others. -/
def appendedWatch? : Move → Option (Rule RawSource)
  | .appendWatch resource f => some (⟨"watch", resource⟩, f)
  | _ => none

/-- The rule for watches that goes in front of the others. -/
def prependedWatch? : Move → Option (Rule RawSource)
  | .prependWatch resource f => some (⟨"watch", resource⟩, f)
  | _ => none

/-- The action of a request. -/
def action? : Move → Option Action
  | .call K api q _ => q.action? K api
  | _ => none

/-- Whether the move registers something behind the other reactors. -/
def isAppend : Move → Bool
  | .append .. => true
  | .appendWatch .. => true
  | _ => false

/-- Whether someone sees to the receiver of a watch. -/
def isAttend : Move → Bool
  | .attend .. => true
  | _ => false

end Move

/-- The cluster as it begins with what a tracker holds. -/
def holding (s : Scheme) (t : Tracker) : Clientset :=
  { ofScheme s with tracker := t }

/-- The cluster after some moves. -/
def moved (c : Clientset) (ms : List Move) : Clientset :=
  ms.foldl Move.run c

/-- The rules for actions that moves register: in front the newest comes first, and behind the
oldest. -/
def objectRules (ms : List Move) : Rules Reply :=
  ⟨(ms.filterMap Move.prepended?).reverse, ms.filterMap Move.appended?⟩

/-- The rules for watches that moves register. -/
def watchRules (ms : List Move) : Rules RawSource :=
  ⟨(ms.filterMap Move.prependedWatch?).reverse, ms.filterMap Move.appendedWatch?⟩

/-- Whether an action is left to the tracker after some moves. -/
def isLeft (ms : List Move) (a : Action) : Bool :=
  if a.isWatch then ((watchRules ms).inFront? a).isNone else ((objectRules ms).inFront? a).isNone

/-- The actions of moves that come behind others, and whether they are left to the tracker. -/
def recordedFrom (before : List Move) : List Move → List (Action × Bool)
  | [] => []
  | m :: ms => (m.action?.map fun a => (a, isLeft before a)).toList ++
      recordedFrom (before ++ [m]) ms

/-- The actions of moves, and whether they are left to the tracker. -/
def recorded (ms : List Move) : List (Action × Bool) :=
  recordedFrom [] ms

/-- The actions of moves that are left to the tracker. -/
def left (ms : List Move) : List Action :=
  ((recorded ms).filter (·.2)).map (·.1)

/-! ### What moves lead to -/

theorem moved_append_singleton (c : Clientset) (ms : List Move) (m : Move) :
    c.moved (ms ++ [m]) = m.run (c.moved ms) := by
  simp [moved]

theorem recordedFrom_append (ms more : List Move) : ∀ before : List Move,
    recordedFrom before (ms ++ more) =
      recordedFrom before ms ++ recordedFrom (before ++ ms) more := by
  induction ms with
  | nil =>
    intro before
    simp [recordedFrom]
  | cons m ms ih =>
    intro before
    simp [recordedFrom, ih]

theorem recorded_append_singleton (ms : List Move) (m : Move) :
    recorded (ms ++ [m]) = recorded ms ++ (m.action?.map fun a => (a, isLeft ms a)).toList := by
  unfold recorded
  rw [recordedFrom_append]
  simp [recordedFrom]

theorem left_append_singleton (ms : List Move) (m : Move) :
    left (ms ++ [m]) = left ms ++ (m.action?.filter (isLeft ms)).toList := by
  unfold left
  rw [recorded_append_singleton, List.filter_append, List.map_append]
  cases m.action? with
  | none => rfl
  | some a => cases ha : isLeft ms a <;> simp [ha, Option.filter]

section

variable {c : Clientset} {ms : List Move}

/-- An action is answered by the first reactor that does not pass on it, goes into the journal,
and changes the tracker if it is left to it. -/
theorem acted_eq (h : c.HasRules (objectRules ms) (watchRules ms)) (a : Action) :
    c.acted a = { c with
      tracker := if isLeft ms a then c.tracker.obey a else c.tracker
      journal := c.journal ++ [a] } := by
  unfold acted isLeft
  cases ha : a.isWatch with
  | true =>
    rw [if_pos rfl, if_pos rfl, h.invokeWatch_eq ha]
    cases (watchRules ms).inFront? a <;> rfl
  | false =>
    rw [if_neg Bool.false_ne_true, if_neg Bool.false_ne_true, h.invoke_eq ha]
    cases (objectRules ms).inFront? a <;> rfl

/-- A request is its action, if it has one. -/
theorem run_call_eq (h : c.HasRules (objectRules ms) (watchRules ms)) {α : Type} (K : Kind α)
    (api : FakeApi) {q : FakeApi.Request α} (hq : q.isSeed = false) :
    q.run K api c = { c with
      tracker := ((q.action? K api).filter (isLeft ms)).elim c.tracker c.tracker.obey
      journal := c.journal ++ (q.action? K api).toList } := by
  rw [(FakeApi.Request.answer_eq K api c hq).2]
  cases q.action? K api with
  | none => simp
  | some a =>
    show c.acted a = _
    rw [acted_eq h]
    cases ha : isLeft ms a <;> simp [ha, Option.filter]

end

/-! ### Runs from the beginning -/

/-- One move more has its rule in front of those in front, or behind those behind. -/
theorem objectRules_concat (ms : List Move) (m : Move) : objectRules (ms ++ [m]) =
    ⟨m.prepended?.toList ++ (objectRules ms).front,
      (objectRules ms).back ++ m.appended?.toList⟩ := by
  cases hp : m.prepended? <;> cases ha : m.appended? <;> simp [objectRules, hp, ha]

theorem watchRules_concat (ms : List Move) (m : Move) : watchRules (ms ++ [m]) =
    ⟨m.prependedWatch?.toList ++ (watchRules ms).front,
      (watchRules ms).back ++ m.appendedWatch?.toList⟩ := by
  cases hp : m.prependedWatch? <;> cases ha : m.appendedWatch? <;> simp [watchRules, hp, ha]

/-- A move that registers a reactor adds to the rules where it says. -/
theorem HasRules.run {c : Clientset} {ms : List Move}
    (h : c.HasRules (objectRules ms) (watchRules ms)) (m : Move) :
    (m.run c).HasRules (objectRules (ms ++ [m])) (watchRules (ms ++ [m])) := by
  rw [objectRules_concat, watchRules_concat]
  obtain ⟨ho, hw⟩ := h
  cases m with
  | append verb resource f =>
    simp only [Move.run, Clientset.append, Move.prepended?, Move.appended?, Move.prependedWatch?,
      Move.appendedWatch?]
    cases Pattern.make verb resource with
    | error e => exact ⟨by simpa [Except.toOption] using ho, by simpa [Except.toOption] using hw⟩
    | ok p =>
      exact ⟨by simp [Except.toOption, ho, ObjectReactor.ofRules],
        by simpa [Except.toOption] using hw⟩
  | prepend verb resource f =>
    simp only [Move.run, Clientset.prepend, Move.prepended?, Move.appended?, Move.prependedWatch?,
      Move.appendedWatch?]
    cases Pattern.make verb resource with
    | error e => exact ⟨by simpa [Except.toOption] using ho, by simpa [Except.toOption] using hw⟩
    | ok p =>
      exact ⟨by simp [Except.toOption, ho, ObjectReactor.ofRules],
        by simpa [Except.toOption] using hw⟩
  | appendWatch resource f =>
    refine ⟨?_, ?_⟩
    · simpa [Move.run, Clientset.appendWatch, Move.prepended?, Move.appended?] using ho
    · simp [Move.run, Clientset.appendWatch, Move.prependedWatch?, Move.appendedWatch?, hw,
        WatchReactor.ofRules]
  | prependWatch resource f =>
    refine ⟨?_, ?_⟩
    · simpa [Move.run, Clientset.prependWatch, Move.prepended?, Move.appended?] using ho
    · simp [Move.run, Clientset.prependWatch, Move.prependedWatch?, Move.appendedWatch?, hw,
        WatchReactor.ofRules]
  | call K api q hq =>
    have hc : c.HasRules (objectRules ms) (watchRules ms) := ⟨ho, hw⟩
    rw [Move.run, run_call_eq hc K api hq]
    exact ⟨by simpa [Move.prepended?, Move.appended?] using ho,
      by simpa [Move.prependedWatch?, Move.appendedWatch?] using hw⟩
  | attend d hd =>
    exact ⟨by simpa [Move.run, Move.prepended?, Move.appended?] using ho,
      by simpa [Move.run, Move.prependedWatch?, Move.appendedWatch?] using hw⟩

variable (s : Scheme) (t : Tracker) (ms : List Move)

/-- A cluster has the reactors that were registered with it. -/
theorem hasRules_moved : ((holding s t).moved ms).HasRules
    (objectRules ms) (watchRules ms) := by
  induction ms using List.reverseRecOn with
  | nil => exact ⟨rfl, rfl⟩
  | append_singleton ms m ih =>
    rw [moved_append_singleton]
    exact ih.run m

section

variable {ms}

/-- Who sees to the receiver of a watch changes nothing that the tracker stores. -/
theorem sameStore_attend {d : Tracker.Call} (hd : d.subscription?.isSome = true) :
    t.SameStore (t.perform d).2 := by
  cases d with
  | drain id =>
    dsimp only [Tracker.perform, Tracker.drain]
    cases t.receivers.get? id <;> exact ⟨rfl, rfl, rfl⟩
  | close id =>
    dsimp only [Tracker.perform, Tracker.close]
    cases t.receivers.get? id <;> exact ⟨rfl, rfl, rfl⟩
  | unsubscribe id => exact ⟨rfl, rfl, rfl⟩
  | _ => cases hd

/-- What a move does to the journal and the tracker comes from its action, if it has one; who
sees to a receiver leaves what is stored as it is. -/
theorem run_move {c : Clientset} (h : c.HasRules (objectRules ms) (watchRules ms)) (m : Move) :
    (m.run c).journal = c.journal ++ m.action?.toList ∧
      ((m.action?.filter (isLeft ms)).elim c.tracker c.tracker.obey).SameStore
        (m.run c).tracker ∧
      (m.isAttend = false →
        (m.action?.filter (isLeft ms)).elim c.tracker c.tracker.obey = (m.run c).tracker) := by
  have hsame : ∀ c' : Clientset, c'.journal = c.journal → c'.tracker = c.tracker →
      m.action? = none → c'.journal = c.journal ++ m.action?.toList ∧
      ((m.action?.filter (isLeft ms)).elim c.tracker c.tracker.obey).SameStore c'.tracker ∧
      (m.isAttend = false →
        (m.action?.filter (isLeft ms)).elim c.tracker c.tracker.obey = c'.tracker) := by
    intro c' hj ht hm
    rw [hm, ht, hj]
    exact ⟨(List.append_nil _).symm, .refl _, fun _ => rfl⟩
  cases m with
  | append verb resource f =>
    refine hsame _ ?_ ?_ rfl <;> simp only [Move.run, Clientset.append] <;>
      cases Pattern.make verb resource <;> rfl
  | prepend verb resource f =>
    refine hsame _ ?_ ?_ rfl <;> simp only [Move.run, Clientset.prepend] <;>
      cases Pattern.make verb resource <;> rfl
  | appendWatch resource f => exact hsame _ rfl rfl rfl
  | prependWatch resource f => exact hsame _ rfl rfl rfl
  | call K api q hq =>
    have hrun := run_call_eq h K api hq
    rw [Move.run, hrun]
    exact ⟨rfl, .refl _, fun _ => rfl⟩
  | attend d hd =>
    exact ⟨(List.append_nil _).symm, sameStore_attend c.tracker hd, nofun⟩

end

/-- The journal has the actions of all requests, in their order. -/
theorem journal_moved :
    ((holding s t).moved ms).journal =
      (recorded ms).map (·.1) := by
  induction ms using List.reverseRecOn with
  | nil => rfl
  | append_singleton ms m ih =>
    have hstep := (run_move (hasRules_moved s t ms) m).1
    rw [moved_append_singleton, hstep, ih, recorded_append_singleton, List.map_append]
    cases m.action? <;> rfl

/-- What has been left to the tracker, done again, leads to what the tracker stores. -/
theorem tracker_moved :
    ((left ms).foldl Tracker.obey t).SameStore
        ((holding s t).moved ms).tracker ∧
      ((∀ m ∈ ms, m.isAttend = false) → (left ms).foldl Tracker.obey t =
        ((holding s t).moved ms).tracker) := by
  have hfold : ∀ (ms : List Move) (m : Move), (left (ms ++ [m])).foldl Tracker.obey t =
      (m.action?.filter (isLeft ms)).elim ((left ms).foldl Tracker.obey t)
        ((left ms).foldl Tracker.obey t).obey := by
    intro ms m
    rw [left_append_singleton, List.foldl_append]
    cases m.action?.filter (isLeft ms) <;> rfl
  induction ms using List.reverseRecOn with
  | nil => exact ⟨.refl t, fun _ => rfl⟩
  | append_singleton ms m ih =>
    obtain ⟨-, hstore, hequal⟩ := run_move (hasRules_moved s t ms) m
    obtain ⟨ih, ihequal⟩ := ih
    rw [moved_append_singleton, hfold]
    refine ⟨?_, ?_⟩
    · refine .trans ?_ hstore
      cases m.action?.filter (isLeft ms) with
      | none => exact ih
      | some a => exact ih.obey a
    · intro hattend
      rw [ihequal fun m' hm' => hattend m' (by simp [hm'])]
      exact hequal (hattend m (by simp))

/-! ### Reactors behind the tracker -/

/-- Without the registrations behind the tracker the rules in front of it are the same. -/
theorem front_filter : (objectRules (ms.filter (!·.isAppend))).front = (objectRules ms).front ∧
    (watchRules (ms.filter (!·.isAppend))).front = (watchRules ms).front := by
  have hfilter : ∀ {β : Type} (f : Move → Option (Rule β)), (∀ m, m.isAppend = true → f m = none) →
      (ms.filter (!·.isAppend)).filterMap f = ms.filterMap f := by
    intro β f hf
    rw [List.filterMap_filter]
    refine List.filterMap_congr fun m _ => ?_
    cases hm : m.isAppend with
    | true => simp [hf m hm]
    | false => simp
  refine ⟨congrArg List.reverse (hfilter _ fun m hm => ?_),
    congrArg List.reverse (hfilter _ fun m hm => ?_)⟩ <;> cases m <;> first | rfl | cases hm

theorem isLeft_filter (a : Action) : isLeft (ms.filter (!·.isAppend)) a = isLeft ms a := by
  obtain ⟨ho, hw⟩ := front_filter ms
  simp [isLeft, Rules.inFront?, ho, hw]

/-- A registration behind the tracker, or anything else that is done with two clusters with the
same rules in front, leaves them with the same tracker and journal. -/
theorem run_alike {c c' : Clientset} {ms ms' : List Move}
    (h : c.HasRules (objectRules ms) (watchRules ms))
    (h' : c'.HasRules (objectRules ms') (watchRules ms'))
    (hleft : ∀ a, isLeft ms' a = isLeft ms a) (ht : c'.tracker = c.tracker)
    (hj : c'.journal = c.journal) (m : Move) :
    (m.run c').tracker = (m.run c).tracker ∧ (m.run c').journal = (m.run c).journal := by
  obtain ⟨hjm, -, htm⟩ := run_move h m
  obtain ⟨hjm', -, htm'⟩ := run_move h' m
  refine ⟨?_, by rw [hjm, hjm', hj]⟩
  cases hm : m.isAttend with
  | false => rw [← htm hm, ← htm' hm, ht, funext hleft]
  | true =>
    cases m with
    | attend d hd => simp only [Move.run, ht]
    | _ => cases hm

/-- Without the registrations behind the tracker the same happens to the tracker and the
journal. -/
theorem moved_filter :
    ((holding s t).moved (ms.filter (!·.isAppend))).tracker = ((holding s t).moved ms).tracker ∧
      ((holding s t).moved (ms.filter (!·.isAppend))).journal =
        ((holding s t).moved ms).journal := by
  induction ms using List.reverseRecOn with
  | nil => exact ⟨rfl, rfl⟩
  | append_singleton ms m ih =>
    have hc := hasRules_moved s t ms
    rw [List.filter_append, moved_append_singleton]
    cases hm : m.isAppend with
    | true =>
      obtain ⟨hj, -, ht⟩ := run_move hc m
      have hquiet : m.isAttend = false ∧ m.action? = none := by
        cases m <;> first | exact ⟨rfl, rfl⟩ | cases hm
      have ht := ht hquiet.1
      rw [hquiet.2] at hj ht
      rw [hj, ← ht]
      simpa [hm] using ih
    | false =>
      have hrun := run_alike hc (hasRules_moved s t _) (isLeft_filter ms) ih.1 ih.2 m
      simpa [hm, moved_append_singleton] using hrun

/-- The answer to a request is what is made of the first outcome that a reactor gives for its
action. -/
theorem answer_moved {α : Type} (K : Kind α) (api : FakeApi) {q : FakeApi.Request α}
    (hq : q.isSeed = false) :
    let c := (holding s t).moved ms
    q.answer K api c = q.answerBy K api
      (fun a => ((objectRules ms).first? (c.tracker.react a).1 a).getD (.error (unhandled a)))
      (fun a => ((watchRules ms).first? (c.tracker.reactWatch a).1 a).getD
        (.error (unhandled a))) := by
  intro c
  have hc : c.HasRules (objectRules ms) (watchRules ms) := hasRules_moved s t ms
  rw [(FakeApi.Request.answer_eq K api c hq).1]
  refine FakeApi.Request.answerBy_congr K api ?_ ?_
  · intro a ha
    rw [hc.invoke_eq ha]
  · intro a ha
    rw [hc.invokeWatch_eq ha]

/-- Without the registrations behind the tracker a request is answered in the same way. -/
theorem answer_filter {α : Type} (K : Kind α) (api : FakeApi) {q : FakeApi.Request α}
    (hq : q.isSeed = false) :
    q.answer K api ((holding s t).moved (ms.filter (!·.isAppend))) =
      q.answer K api ((holding s t).moved ms) := by
  obtain ⟨htracker, -⟩ := moved_filter s t ms
  obtain ⟨hobjects, hwatches⟩ := front_filter ms
  refine (answer_moved s t (ms.filter (!·.isAppend)) K api hq).trans
    (Eq.trans ?_ (answer_moved s t ms K api hq).symm)
  rw [htracker]
  refine FakeApi.Request.answerBy_congr K api ?_ ?_
  · intro a ha
    have hown := ((holding s t).moved ms).tracker.isSome_react ha
    rw [Rules.first?_eq _ hown, Rules.first?_eq _ hown, Rules.inFront?, hobjects]
    rfl
  · intro a ha
    have hown := ((holding s t).moved ms).tracker.isSome_reactWatch ha
    rw [Rules.first?_eq _ hown, Rules.first?_eq _ hown, Rules.inFront?, hwatches]
    rfl

/-- However rules are registered and requests are made, the first reactor that does not pass on
the action of a request decides its answer: of the rules in front the newest, else the tracker,
and never one behind it, without which everything is the same. The tracker changes only by the
actions that are left to it, and all actions of requests are in the journal in their order, so
that doing again those that were left to the tracker leads to what it stores. -/
theorem first_answer_decides (s : Scheme) (t : Tracker) (ms : List Move) :
    let c := (holding s t).moved ms
    let c' := (holding s t).moved (ms.filter (!·.isAppend))
    (∀ (α : Type) (K : Kind α) (api : FakeApi) (q : FakeApi.Request α), q.isSeed = false →
      q.answer K api c = q.answerBy K api
        (fun a => ((objectRules ms).first? (c.tracker.react a).1 a).getD (.error (unhandled a)))
        (fun a => ((watchRules ms).first? (c.tracker.reactWatch a).1 a).getD
          (.error (unhandled a))) ∧
      q.answer K api c' = q.answer K api c ∧
      (q.run K api c).tracker =
        ((q.action? K api).filter (isLeft ms)).elim c.tracker c.tracker.obey ∧
      (q.run K api c).journal = c.journal ++ (q.action? K api).toList) ∧
    c.journal = (recorded ms).map (·.1) ∧
    ((left ms).foldl Tracker.obey t).SameStore c.tracker ∧
    ((∀ m ∈ ms, m.isAttend = false) → (left ms).foldl Tracker.obey t = c.tracker) ∧
    c'.tracker = c.tracker ∧ c'.journal = c.journal := by
  intro c c'
  have hc : c.HasRules (objectRules ms) (watchRules ms) := hasRules_moved s t ms
  obtain ⟨htracker, hjournal⟩ : c'.tracker = c.tracker ∧ c'.journal = c.journal :=
    moved_filter s t ms
  obtain ⟨hstore, hequal⟩ := tracker_moved s t ms
  refine ⟨?_, journal_moved s t ms, hstore, hequal, htracker, hjournal⟩
  intro α K api q hq
  have hrun := run_call_eq hc K api hq
  exact ⟨answer_moved s t ms K api hq, answer_filter s t ms K api hq, by rw [hrun], by rw [hrun]⟩

/-- A rule in front refuses creates in one namespace, another one watches, and one behind
everything: of the two creates only that in the other namespace gets to the tracker, and what it
stored is there although the last rule refuses to get it. -/
theorem knives_ask_the_newest_first :
    let api : FakeApi := ⟨⟨"test.kubegen.dev", "v1", "Knife", "knives"⟩⟩
    let K := Knife.asKind
    let refused : Status := .bare 403 "Forbidden" "no"
    let knife : Knife := ⟨.named "a", ["sharp"]⟩
    let foreign : Knife := ⟨{ ObjectMeta.named "a" with ns := some "b" }, []⟩
    let ms : List Move := [
      .prepend "create" "*" fun a => if a.ns = "b" then Reaction.fail refused else none,
      .append "*" "knives" fun _ => Reaction.fail refused,
      .prependWatch "knives" fun _ => Reaction.fail refused,
      .call K api (.create knife .none) rfl,
      .call K api (.create foreign .none) rfl,
      .call K api (.watch "" .none) rfl]
    let c := (holding .empty .empty).moved ms
    (∀ m ∈ ms, m.isAttend = false) ∧
    (left ms).map (fun a => (a.verb, a.ns)) = [("create", "")] ∧
    (left ms).foldl Tracker.obey .empty = c.tracker ∧
    c.journal.map (·.verb) = ["create", "create", "watch"] ∧
    (((api.calls K).create foreign .none).run c).1 = .error (.api refused) ∧
    ((FakeApi.Request.create foreign .none).run K api c).tracker = c.tracker ∧
    (((api.calls K).get "a" "" ⟨none⟩).run c).1.map K.metadata =
      .ok { ObjectMeta.named "a" with resourceVersion := some "1" } := by
  intro api K refused knife foreign ms c
  have hattend : ∀ m ∈ ms, m.isAttend = false := by decide
  obtain ⟨hcalls, hjournal, -, hreplay, -⟩ := first_answer_decides .empty .empty ms
  obtain ⟨hrefused, -, hunchanged, -⟩ := hcalls Knife K api (.create foreign .none) rfl
  have hgot := (hcalls Knife K api (.get "a" "" ⟨none⟩) rfl).1
  have hleft : (FakeApi.Request.action? K api (.create foreign .none)).filter (isLeft ms) =
      none := by decide +kernel
  rw [hleft] at hunchanged
  simp only [FakeApi.Request.answer, FakeApi.Request.answerBy, FakeApi.Answer.object.injEq]
    at hrefused hgot
  refine ⟨hattend, by decide +kernel, hreplay hattend, ?_, ?_, hunchanged, ?_⟩
  · show c.journal.map _ = _
    rw [show c.journal = _ from hjournal]
    decide +kernel
  · rw [show (((api.calls K).create foreign .none).run c).1 = _ from hrefused]
    decide +kernel
  · rw [show (((api.calls K).get "a" "" ⟨none⟩).run c).1 = _ from hgot]
    decide +kernel

end Clientset
end ClusterKit
