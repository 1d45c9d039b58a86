/-
# Clusters as they begin

Unless reactors are added, a fake cluster answers everything from its tracker.
What is asked of it through apis is then a run of calls on the tracker: one
for each request, or none if the request fails before it gets there.

Key definitions: `Clientset.IsDefault`, `FakeApi.Request`, `FakeApi.Answer`,
`FakeApi.Request.call?`.
Key theorems: `Clientset.invoke_eq`, `FakeApi.Request.run_eq`.
-/
import ClusterKit.Fake.Api
import ClusterKit.Outcome
import ClusterKit.Proofs.Tracker.History

namespace ClusterKit

/-! ### Actions -/

/-- The tracker's call for an action other than a watch. -/
def Action.call? (a : Action) : Option Tracker.Call :=
  match a.deed with
  | .get name => some (.get a.resource a.ns name)
  | .list _ => some (.list a.resource a.ns)
  | .create o p => some (.create a.resource a.ns o p)
  | .update o p => some (.update a.resource a.ns o p)
  | .delete name p => some (.delete a.resource a.ns name p)
  | .watch _ => none

namespace Tracker

/-- The reactor of the tracker answers everything but watches by the call. -/
theorem react_call (t : Tracker) {a : Action} {c : Call} (h : a.call? = some c) :
    (t.react a).1.isSome = true ∧ (t.react a).2 = (t.perform c).2 := by
  obtain ⟨r, ns, d⟩ := a
  cases d with
  | get name =>
    cases h
    dsimp only [react, perform]
    cases t.get r ns name <;> exact ⟨rfl, rfl⟩
  | list p =>
    cases h
    dsimp only [react, perform]
    cases selector r p <;> exact ⟨rfl, rfl⟩
  | create o p =>
    cases h
    dsimp only [react, perform]
    cases t.create r ns o p <;> exact ⟨rfl, rfl⟩
  | update o p =>
    cases h
    dsimp only [react, perform]
    cases t.update r ns o p <;> exact ⟨rfl, rfl⟩
  | delete name p =>
    cases h
    dsimp only [react, perform]
    cases t.delete r ns name p <;> exact ⟨rfl, rfl⟩
  | watch p => cases h

end Tracker

namespace Clientset

/-- The cluster has the reactors that it begins with. -/
structure IsDefault (c : Clientset) : Prop where
  objects : c.objectChain = [(⟨"*", "*"⟩, .shared)]
  watches : c.watchChain = [(⟨"watch", "*"⟩, .shared)]

theorem isDefault_ofScheme (s : Scheme) : (ofScheme s).IsDefault :=
  ⟨rfl, rfl⟩

variable {c : Clientset}

/-- The first answer of a cluster is that of its tracker. -/
theorem invoke_eq (h : c.IsDefault) (a : Action) :
    c.invoke a = ((c.tracker.react a).1.getD (.error (unhandled a)),
      { c with tracker := (c.tracker.react a).2, journal := c.journal ++ [a] }) := by
  have hsuits : Pattern.suits ⟨"*", "*"⟩ a = true := rfl
  have hask : ObjectReactor.ask a c.tracker c.objectChain =
      ((c.tracker.react a).1, c.objectChain, (c.tracker.react a).2) := by
    rw [h.objects]
    simp only [ObjectReactor.ask, hsuits, ObjectReactor.react, if_pos]
    cases (c.tracker.react a).1 <;> rfl
  unfold invoke
  rw [hask]

theorem invokeWatch_eq (h : c.IsDefault) {a : Action} {p : ListParams} (ha : a.deed = .watch p) :
    c.invokeWatch a = ((c.tracker.reactWatch a).1.getD (.error (unhandled a)),
      { c with tracker := (c.tracker.reactWatch a).2, journal := c.journal ++ [a] }) := by
  have hsuits : Pattern.suits ⟨"watch", "*"⟩ a = true := by
    simp [Pattern.suits, Action.isOf, Action.verb, ha]
  have hask : WatchReactor.ask a c.tracker c.watchChain = c.tracker.reactWatch a := by
    rw [h.watches]
    simp only [WatchReactor.ask, hsuits, WatchReactor.react, if_pos]
    cases hr : c.tracker.reactWatch a with
    | mk r t => cases r <;> rfl
  unfold invokeWatch
  rw [hask]

theorem IsDefault.invoke (h : c.IsDefault) (a : Action) : (c.invoke a).2.IsDefault := by
  rw [invoke_eq h]
  exact ⟨h.objects, h.watches⟩

theorem IsDefault.invokeWatch (h : c.IsDefault) {a : Action} {p : ListParams}
    (ha : a.deed = .watch p) : (c.invokeWatch a).2.IsDefault := by
  rw [invokeWatch_eq h ha]
  exact ⟨h.objects, h.watches⟩

end Clientset

/-! ### Requests through an api -/

namespace FakeApi

variable {α β : Type} (K : Kind α) (api : FakeApi)

/-- A call of an api is an action, of whose reply something is made. -/
theorem run_invoke (a : Action) (f : Reply → Except ClientError β) (c : Clientset) :
    (do let r ← invoke a; f r : ExceptT ClientError (StateM Clientset) β).run c =
      ((c.invoke a).1.bind f, (c.invoke a).2) := by
  show ExceptT.bindCont (fun r => (liftM (f r) : ExceptT ClientError (StateM Clientset) β))
    (c.invoke a).1 (c.invoke a).2 = _
  cases (c.invoke a).1 <;> rfl

theorem run_write (verb : String) (obj : α) (deed : Erased → Deed) (c : Clientset) :
    (api.write K verb obj deed).run c = match K.erase api.resource obj with
      | .error e => (.error (.misfit e), c)
      | .ok o =>
        let a := api.action ((K.metadata obj).ns.getD "") (deed o)
        ((c.invoke a).1.bind (typed K verb), (c.invoke a).2) := by
  unfold write
  cases K.erase api.resource obj with
  | error e => rfl
  | ok o => exact run_invoke _ _ _

/-- What can be asked of an api, seeds included. -/
inductive Request (α : Type)
  | get (name ns : String) (p : GetParams)
  | create (obj : α) (p : PostParams)
  | update (obj : α) (p : PostParams)
  | delete (name ns : String) (p : DeleteParams)
  | list (ns : String) (p : ListParams)
  | watch (ns : String) (p : ListParams)
  | seed (obj : α)

/-- What a call of an api is answered with; of a watch that has been opened the caller sees some
view. -/
inductive Answer (α ω : Type)
  | object (x : Except ClientError α)
  | done (x : Except ClientError Unit)
  | list (x : Except ClientError (ObjectList α))
  | opened (x : Except ClientError ω)
  | nothing

namespace Request

/-- The cluster after a request. -/
def run (c : Clientset) : Request α → Clientset
  | .get name ns p => (((api.calls K).get name ns p).run c).2
  | .create obj p => (((api.calls K).create obj p).run c).2
  | .update obj p => (((api.calls K).update obj p).run c).2
  | .delete name ns p => (((api.calls K).delete name ns p).run c).2
  | .list ns p => (((api.calls K).list ns p).run c).2
  | .watch ns p => (((api.calls K).watch ns p).run c).2
  | .seed obj => (api.seed K obj c).toOption.getD c

/-- The call on the tracker that a request comes down to, if it gets there. -/
def call? : Request α → Option Tracker.Call
  | .get name ns _ => some (.get api.resource.gvr ns name)
  | .create obj p =>
    (K.erase api.resource obj).toOption.map fun o =>
      .create api.resource.gvr ((K.metadata obj).ns.getD "") o p
  | .update obj p =>
    (K.erase api.resource obj).toOption.map fun o =>
      .update api.resource.gvr ((K.metadata obj).ns.getD "") o p
  | .delete name ns p => some (.delete api.resource.gvr ns name p)
  | .list ns _ => some (.list api.resource.gvr ns)
  | .watch ns p =>
    (Tracker.selector api.resource.gvr p).toOption.map fun _ => .watch api.resource.gvr ns
  | .seed obj => (K.erase api.resource obj).toOption.map (.add api.resource.gvr)

end Request

theorem run_watch (ns : String) (p : ListParams) (c : Clientset) :
    ((api.calls K).watch ns p).run c =
      ((c.invokeWatch (api.action ns (.watch p))).1.map (LiveWatcher.ofSource api.resource),
        (c.invokeWatch (api.action ns (.watch p))).2) := by
  show ExceptT.bindCont (fun s => (pure (LiveWatcher.ofSource api.resource s) :
      ExceptT ClientError (StateM Clientset) (LiveWatcher α)))
    (c.invokeWatch (api.action ns (.watch p))).1 (c.invokeWatch (api.action ns (.watch p))).2 = _
  cases (c.invokeWatch (api.action ns (.watch p))).1 <;> rfl

/-- A request to a cluster as it begins is at most one call on its tracker. -/
theorem Request.run_eq {c : Clientset} (h : c.IsDefault) (q : Request α) :
    (q.run K api c).IsDefault ∧
      (q.run K api c).tracker = c.tracker.run (q.call? K api).toList := by
  have hinvoke : ∀ a call, Action.call? a = some call → (c.invoke a).2.IsDefault ∧
      (c.invoke a).2.tracker = c.tracker.run [call] := by
    intro a call ha
    refine ⟨h.invoke a, ?_⟩
    rw [Clientset.invoke_eq h]
    exact (c.tracker.react_call ha).2
  have hwrite : ∀ verb obj deed call, (∀ o a, a.deed = deed o → a.resource = api.resource.gvr →
      a.ns = (K.metadata obj).ns.getD "" → Action.call? a = some (call o)) →
      (((api.write K verb obj deed).run c).2).IsDefault ∧
        ((api.write K verb obj deed).run c).2.tracker =
          c.tracker.run (((K.erase api.resource obj).toOption.map call).toList) := by
    intro verb obj deed call hcall
    rw [run_write]
    cases K.erase api.resource obj with
    | error e => exact ⟨h, rfl⟩
    | ok o => exact hinvoke _ _ (hcall o _ rfl rfl rfl)
  cases q with
  | get name ns p =>
    have hrun : (Request.get name ns p).run K api c = (c.invoke (api.action ns (.get name))).2 :=
      congrArg Prod.snd (run_invoke _ _ _)
    rw [hrun]
    exact hinvoke _ _ rfl
  | create obj p =>
    apply hwrite "create" obj (.create · p)
    rintro o ⟨r, ns, d⟩ rfl rfl rfl
    rfl
  | update obj p =>
    apply hwrite "update" obj (.update · p)
    rintro o ⟨r, ns, d⟩ rfl rfl rfl
    rfl
  | delete name ns p =>
    have hrun : (Request.delete name ns p).run K api c =
        (c.invoke (api.action ns (.delete name p))).2 := congrArg Prod.snd (run_invoke _ _ _)
    rw [hrun]
    exact hinvoke _ _ rfl
  | list ns p =>
    have hrun : (Request.list ns p).run K api c = (c.invoke (api.action ns (.list p))).2 :=
      congrArg Prod.snd (run_invoke _ _ _)
    rw [hrun]
    exact hinvoke _ _ rfl
  | watch ns p =>
    have hrun : (Request.watch ns p).run K api c =
        (c.invokeWatch (api.action ns (.watch p))).2 := congrArg Prod.snd (run_watch K api ns p c)
    rw [hrun]
    refine ⟨h.invokeWatch rfl, ?_⟩
    rw [Clientset.invokeWatch_eq h rfl]
    simp only [Tracker.reactWatch, action, Request.call?]
    cases Tracker.selector api.resource.gvr p <;> rfl
  | seed obj =>
    simp only [Request.run, FakeApi.seed, Request.call?]
    cases K.erase api.resource obj with
    | error e => exact ⟨h, rfl⟩
    | ok o =>
      have hadd : (c.tracker.perform (.add api.resource.gvr o)).2 =
          (c.tracker.add api.resource.gvr o).toOption.getD c.tracker := by
        simp only [Tracker.perform]
        cases c.tracker.add api.resource.gvr o <;> rfl
      simp only [Except.toOption, Option.map_some, Option.toList_some, Tracker.run_cons,
        Tracker.run_nil, hadd]
      cases c.tracker.add api.resource.gvr o with
      | error s => exact ⟨h, rfl⟩
      | ok t => exact ⟨⟨h.objects, h.watches⟩, rfl⟩

end FakeApi
end ClusterKit
