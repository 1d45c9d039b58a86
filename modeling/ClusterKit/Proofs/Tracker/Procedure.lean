/-
# Calls as procedures

A procedure works on a tracker in place: it looks something up, counts the
version up, stores, removes or publishes, one after the other. Where it fails it
just ends, and what it has done by then stays done. Each call is such a
procedure, and does what the tracker is said to do for it (`Call.run_procedure`).
So a call that fails has failed before the first thing that it would have
changed, and one that is only tried stops there too, behind all checks.

Key definitions: `Tracker.Procedure`, `Tracker.Call.procedure`, `Tracker.Call.isTried`.
Key theorems: `Tracker.Call.run_procedure`,
`Tracker.failed_and_tried_calls_leave_no_trace`.
-/
import ClusterKit.Proofs.Tracker.Call

namespace ClusterKit

/-- The parameters of a call that is only tried. -/
def PostParams.tried (p : PostParams) : PostParams :=
  { p with dryRun := true }

/-- The parameters of a call that is meant. -/
def PostParams.meant (p : PostParams) : PostParams :=
  { p with dryRun := false }

/-- The parameters of a delete that is only tried. -/
def DeleteParams.tried (p : DeleteParams) : DeleteParams :=
  { p with dryRun := true }

/-- The parameters of a delete that is meant. -/
def DeleteParams.meant (p : DeleteParams) : DeleteParams :=
  { p with dryRun := false }

namespace Tracker

/-- What works on a tracker in place, and does not undo anything when it fails. -/
abbrev Procedure (α : Type) := ExceptT Status (StateM Tracker) α

namespace Procedure

/-- Count the version up. -/
def nextVersion : Procedure String := do
  modify fun t => { t with version := t.version + 1 }
  return toString (← getThe Tracker).version

/-- Put an object at a key. -/
def keep (r : GroupVersionResource) (k : ObjectKey) (o : Erased) : Procedure Unit :=
  modify (·.put r k o)

/-- Take away the object at a key. -/
def discard (r : GroupVersionResource) (k : ObjectKey) : Procedure Unit :=
  modify (·.remove r k)

/-- Tell the subscriptions of a change, once the closed ones are forgotten. -/
def tell (r : GroupVersionResource) (e : WatchEvent Erased) : Procedure Unit := do
  modify (·.prune r)
  modify (·.send r e)

/-- Put an object at a key at the next version, and tell of it. -/
def store (r : GroupVersionResource) (k : ObjectKey) (o : Erased)
    (event : Erased → WatchEvent Erased) : Procedure Erased := do
  let version ← nextVersion
  let stored := atVersion (some version) o
  keep r k stored
  tell r (event stored)
  return stored

/-- Store an object, in place of the one at its key if there is one. -/
def add (r : GroupVersionResource) (o : Erased) : Procedure Unit := do
  let (k, o) ← place r "" o
  let old := (← getThe Tracker).find? r k
  let _ ← store r k o (if old.isSome then .modified else .added)

/-- Store an object where there is none. -/
def create (r : GroupVersionResource) (ns : String) (o : Erased) (p : PostParams) :
    Procedure Erased := do
  let (k, o) ← place r ns o
  if ((← getThe Tracker).find? r k).isSome then throw (.alreadyExists r k.name)
  if p.dryRun then return atVersion none o
  store r k o .added

/-- Replace the object at the key of another. -/
def update (r : GroupVersionResource) (ns : String) (o : Erased) (p : PostParams) :
    Procedure Erased := do
  let (k, o) ← place r ns o
  let some stored := (← getThe Tracker).find? r k
    | throw (.notFound r k.name)
  if (claimedVersion o).isSome && claimedVersion o != stored.metadata.resourceVersion then
    throw (.conflict r k.name outdated)
  if p.dryRun then return atVersion stored.metadata.resourceVersion o
  store r k o .modified

/-- Remove the object of a name. -/
def delete (r : GroupVersionResource) (ns name : String) (p : DeleteParams) :
    Procedure Erased := do
  let some stored := (← getThe Tracker).find? r ⟨ns, name⟩
    | throw (.notFound r name)
  if let some c := p.preconditions then
    checkPreconditions r stored c
  if p.dryRun then return stored
  discard r ⟨ns, name⟩
  tell r (.deleted stored)
  return stored

end Procedure

namespace Call

/-- The procedure of a call. -/
def procedure : Call → Procedure Answer
  | .add r o => do
    Procedure.add r o
    return .done
  | .create r ns o p => return .object (← Procedure.create r ns o p)
  | .update r ns o p => return .object (← Procedure.update r ns o p)
  | .delete r ns name p => return .object (← Procedure.delete r ns name p)
  | .get r ns name => do
    let o ← (← getThe Tracker).get r ns name
    return .object o
  | .list r ns => return .list ((← getThe Tracker).list r ns)
  | .watch r ns => modifyGet fun t => (.subscribed (t.watch r ns).1, (t.watch r ns).2)
  | .drain id => modifyGet fun t => (.events (t.drain id).1, (t.drain id).2)
  | .close id => modifyGet fun t => (.done, t.close id)
  | .unsubscribe id => modifyGet fun t => (.done, t.unsubscribe id)

/-- Whether the call is one that changes objects, and only tried. -/
def isTried : Call → Bool
  | .create _ _ _ p => p.dryRun
  | .update _ _ _ p => p.dryRun
  | .delete _ _ _ p => p.dryRun
  | _ => false

end Call

/-! ### What procedures do -/

/-- The tracker that a write leaves, which is the one that it has met if it fails. -/
def outcome (t : Tracker) : Except Status (Erased × Tracker) → Except Status Erased × Tracker
  | .ok (o, t) => (.ok o, t)
  | .error s => (.error s, t)

namespace Procedure

variable (t : Tracker) (r : GroupVersionResource) (ns : String) (o : Erased)

section

variable {β γ : Type}

/-- A procedure goes on where the first part of it has come to, or fails there. -/
theorem run_bind (x : Procedure β) (f : β → Procedure γ) : (x >>= f).run t =
    match x.run t with
    | (.ok b, t') => (f b).run t'
    | (.error s, t') => (.error s, t') := by
  show (ExceptT.bindCont f : Except Status β → StateM Tracker (Except Status γ))
    (x.run t).1 (x.run t).2 = _
  cases x.run t with
  | mk e t' => cases e <;> rfl

theorem run_ok_bind (b : β) (f : β → Procedure γ) :
    ((liftM (Except.ok b : Except Status β) : Procedure β) >>= f).run t = (f b).run t := rfl

theorem run_get_bind (f : Tracker → Procedure γ) :
    ((getThe Tracker : Procedure Tracker) >>= f).run t = (f t).run t := rfl

end

theorem run_create (p : PostParams) : (create r ns o p).run t = t.outcome (t.create r ns o p) := by
  unfold create Tracker.create
  cases place r ns o with
  | error s => rfl
  | ok q =>
    obtain ⟨k, o'⟩ := q
    simp only [ok_bind, run_ok_bind, run_get_bind]
    cases (t.find? r k).isSome
    · cases p.dryRun <;> rfl
    · rfl

theorem run_update (p : PostParams) : (update r ns o p).run t = t.outcome (t.update r ns o p) := by
  unfold update Tracker.update
  cases place r ns o with
  | error s => rfl
  | ok q =>
    obtain ⟨k, o'⟩ := q
    simp only [ok_bind, run_ok_bind, run_get_bind]
    cases t.find? r k with
    | none => rfl
    | some stored =>
      dsimp only
      cases (claimedVersion o').isSome && claimedVersion o' != stored.metadata.resourceVersion
      · cases p.dryRun <;> rfl
      · rfl

theorem run_delete (name : String) (p : DeleteParams) :
    (delete r ns name p).run t = t.outcome (t.delete r ns name p) := by
  unfold delete Tracker.delete
  simp only [run_get_bind]
  cases t.find? r ⟨ns, name⟩ with
  | none => rfl
  | some stored =>
    dsimp only
    cases p.preconditions with
    | none => cases p.dryRun <;> rfl
    | some c =>
      dsimp only
      cases checkPreconditions r stored c with
      | error s => rfl
      | ok u => cases p.dryRun <;> rfl

theorem run_add : (add r o).run t = match t.add r o with
    | .ok t' => (.ok (), t')
    | .error s => (.error s, t) := by
  unfold add Tracker.add
  cases place r "" o with
  | error s => rfl
  | ok q => rfl

end Procedure

/-- A call comes to the same as its procedure. -/
theorem Call.run_procedure (t : Tracker) (c : Call) : c.procedure.run t = t.perform c := by
  have hwrite : ∀ (x : Procedure Erased) (e : Except Status (Erased × Tracker)),
      x.run t = t.outcome e → (do return Answer.object (← x) : Procedure Answer).run t =
        t.answered e := by
    intro x e h
    rw [Procedure.run_bind, h]
    cases e <;> rfl
  cases c with
  | add r o =>
    rw [procedure, perform, Procedure.run_bind, Procedure.run_add]
    cases t.add r o <;> rfl
  | create r ns o p => exact hwrite _ _ (Procedure.run_create t r ns o p)
  | update r ns o p => exact hwrite _ _ (Procedure.run_update t r ns o p)
  | delete r ns name p => exact hwrite _ _ (Procedure.run_delete t r ns name p)
  | get r ns name =>
    rw [procedure, perform, Procedure.run_get_bind]
    cases t.get r ns name <;> rfl
  | _ => rfl

/-! ### Calls that fail, and calls that are only tried -/

section

variable (t : Tracker)

/-- A call that fails, or that is only tried, changes nothing at all. -/
theorem perform_of_failed_or_tried {c : Call}
    (h : (t.perform c).1.isOk = false ∨ c.isTried = true) : (t.perform c).2 = t := by
  have hidle : (Entry.mk t c).isEffective = false := by
    rcases h with h | h
    · have hfailed : (Entry.mk t c).succeeded = false := h
      rw [Entry.isEffective, hfailed, Bool.and_false]
    · have hwrite : c.isWrite = false := by
        cases c <;> first | cases h | simpa [Call.isWrite, Call.isTried] using h
      rw [Entry.isEffective, hwrite, Bool.false_and]
  have htend : (t.perform c).2 = c.tend t := by
    rcases (Entry.mk t c).quiet_or_makes with hquiet | ⟨m, hm⟩
    · exact hquiet.after
    · rw [hm.isEffective] at hidle
      cases hidle
  cases c with
  | watch r ns => rcases h with h | h <;> cases h
  | drain id => rcases h with h | h <;> cases h
  | close id => rcases h with h | h <;> cases h
  | unsubscribe id => rcases h with h | h <;> cases h
  | _ => exact htend

/-- The version of the object that is stored where the object `o` belongs. -/
def versionAt (r : GroupVersionResource) (o : Erased) : Option String :=
  (t.find? r ⟨o.metadata.ns.getD "", o.metadata.name.getD ""⟩).bind (·.metadata.resourceVersion)

theorem create_tried (r : GroupVersionResource) (ns : String) (o : Erased) (p : PostParams) :
    (t.create r ns o p.tried).map Prod.fst =
      (t.create r ns o p.meant).map fun a => atVersion none a.1 := by
  unfold create
  cases place r ns o with
  | error s => rfl
  | ok q =>
    obtain ⟨k, o'⟩ := q
    simp only [ok_bind]
    cases (t.find? r k).isSome <;> rfl

theorem update_tried (r : GroupVersionResource) (ns : String) (o : Erased) (p : PostParams) :
    (t.update r ns o p.tried).map Prod.fst =
      (t.update r ns o p.meant).map fun a => atVersion (t.versionAt r a.1) a.1 := by
  unfold update
  cases hp : place r ns o with
  | error s => rfl
  | ok q =>
    obtain ⟨k, o'⟩ := q
    simp only [ok_bind]
    cases hf : t.find? r k with
    | none => rfl
    | some stored =>
      dsimp only
      cases (claimedVersion o').isSome && claimedVersion o' != stored.metadata.resourceVersion
      · have hversion : t.versionAt r (t.store r k o' .modified).1 =
            stored.metadata.resourceVersion := by
          have hat : (t.store r k o' .modified).1.IsAt k := (place_isAt hp).atVersion _
          rw [versionAt, hat.key_eq, hf]
          rfl
        show Except.ok (atVersion stored.metadata.resourceVersion o') =
          .ok (atVersion (t.versionAt r (t.store r k o' .modified).1) _)
        rw [hversion]
        rfl
      · rfl

theorem delete_tried (r : GroupVersionResource) (ns name : String) (p : DeleteParams) :
    (t.delete r ns name p.tried).map Prod.fst = (t.delete r ns name p.meant).map Prod.fst := by
  unfold delete
  cases t.find? r ⟨ns, name⟩ with
  | none => rfl
  | some stored =>
    dsimp only [DeleteParams.tried, DeleteParams.meant]
    cases p.preconditions with
    | none => rfl
    | some c =>
      dsimp only
      cases checkPreconditions r stored c <;> rfl

/-- **No trace.** Every call is a procedure that does its work on the tracker step by step. If
it fails, or is only tried, the tracker is in the end exactly what it was. A create, update or
delete that is tried fails just if it would fail when it is meant, for the same reason, and has
the same answer but for the version of the object: a create that is tried answers with none, and
an update with the stored one. -/
theorem failed_and_tried_calls_leave_no_trace :
    (∀ c : Call, c.procedure.run t = t.perform c ∧
      ((t.perform c).1.isOk = false ∨ c.isTried = true → (c.procedure.run t).2 = t)) ∧
    (∀ r ns o (p : PostParams), (t.create r ns o p.tried).map Prod.fst =
      (t.create r ns o p.meant).map fun a => atVersion none a.1) ∧
    (∀ r ns o (p : PostParams), (t.update r ns o p.tried).map Prod.fst =
      (t.update r ns o p.meant).map fun a => atVersion (t.versionAt r a.1) a.1) ∧
    ∀ r ns name (p : DeleteParams), (t.delete r ns name p.tried).map Prod.fst =
      (t.delete r ns name p.meant).map Prod.fst := by
  refine ⟨fun c => ⟨c.run_procedure t, fun h => ?_⟩, t.create_tried, t.update_tried,
    t.delete_tried⟩
  rw [c.run_procedure]
  exact t.perform_of_failed_or_tried h

end

/-- Under the eyes of a subscriber, an update of an outdated version fails, and one of the
stored version is tried: neither leaves a trace, and the second answers with that version. -/
theorem outdated_and_tried_updates_leave_no_trace :
    let r : GroupVersionResource := ⟨"", "v1", "configmaps"⟩
    let o (v : Option String) : Erased := atVersion v ⟨none, .named "a", .null⟩
    let t : Tracker := ((empty.watch r "").2.perform (.add r (o none))).2
    let outdated : Call := .update r "" (o (some "0")) .none
    let tried : Call := .update r "" (o (some "1")) (PostParams.none.tried)
    (t.perform outdated).1.isOk = false ∧ (outdated.procedure.run t).2 = t ∧
      tried.isTried = true ∧ (tried.procedure.run t).2 = t ∧
      (t.update r "" (o (some "1")) (PostParams.none.tried)).map Prod.fst = .ok (o (some "1")) := by
  intro r o t outdated tried
  obtain ⟨hcalls, -, hupdate, -⟩ := t.failed_and_tried_calls_leave_no_trace
  have hfails : (t.perform outdated).1.isOk = false := by decide
  refine ⟨hfails, (hcalls outdated).2 (.inl hfails), rfl, (hcalls tried).2 (.inr rfl), ?_⟩
  rw [hupdate]
  decide

end Tracker
end ClusterKit
