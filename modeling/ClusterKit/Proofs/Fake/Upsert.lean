/-
# Creating or replacing

To create an object or replace it is to create it and, only if that is refused
since the object is there already, to update it: what was asked of the api says
so for any backend (`ResourceApi.noted`). On a fake cluster that answers from its
tracker this always goes well for an object with a name and no version. Both calls
place it under the same key, so that the update finds what the create was refused for.

Key definitions: `ResourceApi.SaysPresent`, `ResourceApi.noted`, `FakeApi.Upsertable`,
`FakeApi.Upserted`.
Key theorems: `ResourceApi.run_createOrUpdate`, `FakeApi.upserted_of_isDefault`,
`FakeApi.upsert_recovers_from_presence_only`.
-/
import ClusterKit.Proofs.Fake.RoundTrip

namespace ClusterKit

/-! ### What is asked of a backend -/

namespace ResourceApi

variable {m : Type → Type} [Monad m] {α β σ : Type}

/-- The call was refused by a status that says that the object exists already. -/
def SaysPresent (x : Except ClientError α) : Prop :=
  ∃ s : Status, x = .error (.api s) ∧ s.reason = Reason.alreadyExists

theorem saysPresent_error (e : ClientError) :
    SaysPresent (.error e : Except ClientError α) ↔ e.isAlreadyExists = true := by
  cases e <;>
    simp [SaysPresent, ClientError.isAlreadyExists, ClientError.hasStatus, ClientError.status?,
      Status.isAlreadyExists]

theorem not_saysPresent_ok (a : α) : ¬ SaysPresent (.ok a) := by
  rintro ⟨s, hs, -⟩
  cases hs

instance : (x : Except ClientError α) → Decidable (SaysPresent x)
  | .ok a => .isFalse (not_saysPresent_ok a)
  | .error e => decidable_of_iff _ (saysPresent_error e).symm

/-- A call that is noted once it is answered. -/
def note (q : FakeApi.Request α) (call : ExceptT ClientError m β) :
    ExceptT ClientError (StateT (List (FakeApi.Request α)) m) β :=
  ExceptT.mk fun asked => do
    let x ← call.run
    return (x, asked ++ [q])

/-- The api that keeps a list of all that has been asked of it. -/
def noted (api : ResourceApi m α) : ResourceApi (StateT (List (FakeApi.Request α)) m) α where
  get name ns p := note (.get name ns p) (api.get name ns p)
  create obj p := note (.create obj p) (api.create obj p)
  update obj p := note (.update obj p) (api.update obj p)
  delete name ns p := note (.delete name ns p) (api.delete name ns p)
  list ns p := note (.list ns p) (api.list ns p)
  watch ns p := note (.watch ns p) (api.watch ns p)

variable (api : ResourceApi m α) (obj : α) (p : PostParams)

/-- The outcome of the create stands, unless it says that the object is there already. -/
theorem run_createOrUpdate : (api.createOrUpdate obj p).run = (do
    let x ← (api.create obj p).run
    if SaysPresent x then (api.update obj p).run else return x) := by
  show (api.create obj p).run >>= _ = _
  congr 1
  funext x
  cases x with
  | ok a => rw [if_neg (not_saysPresent_ok a)]
  | error e =>
    by_cases he : e.isAlreadyExists = true
    · rw [if_pos ((saysPresent_error e).mpr he)]
      simp only [he, if_true]
      rfl
    · rw [if_neg (mt (saysPresent_error e).mp he)]
      simp only [he]
      rfl

/-- Where a state is handed on, the update begins with what the create has left. -/
theorem run_createOrUpdate_state (api : ResourceApi (StateM σ) α) (s : σ) :
    (api.createOrUpdate obj p).run s =
      let x := (api.create obj p).run s
      if SaysPresent x.1 then (api.update obj p).run x.2 else x := by
  refine (congrFun (run_createOrUpdate api obj p) s).trans ?_
  show (if SaysPresent _ then _ else _ : StateM σ _) _ = _
  split
  · rename_i h
    exact (if_pos h).symm
  · rename_i h
    exact (if_neg h).symm

/-- The update is asked for just if the create says that the object is there already. -/
theorem run_noted_createOrUpdate [LawfulMonad m] (asked : List (FakeApi.Request α)) :
    (api.noted.createOrUpdate obj p).run.run asked = (do
      let x ← (api.create obj p).run
      if SaysPresent x then
        let y ← (api.update obj p).run
        return (y, asked ++ [.create obj p, .update obj p])
      else return (x, asked ++ [.create obj p])) := by
  rw [run_createOrUpdate]
  show ((api.create obj p).run >>= fun x => pure (x, asked ++ [.create obj p])) >>= _ = _
  rw [bind_assoc]
  congr 1
  funext x
  rw [pure_bind]
  by_cases hx : SaysPresent x
  · simp only [if_pos hx]
    show ((api.update obj p).run >>= fun y =>
      pure (y, (asked ++ [.create obj p]) ++ [.update obj p])) = _
    simp
  · simp only [if_neg hx]
    rfl

end ResourceApi

/-! ### On a cluster that answers from its tracker -/

namespace Tracker

variable {t : Tracker} {r : GroupVersionResource} {o : Erased}

/-- An object with a name is placed under it in its own namespace. -/
theorem place_own_of_named (h : o.metadata.name.getD "" ≠ "") :
    place r (o.metadata.ns.getD "") o =
      .ok (⟨o.metadata.ns.getD "", o.metadata.name.getD ""⟩,
        { o with metadata := { o.metadata with ns := o.metadata.ns.filter (!·.isEmpty) } }) := by
  have hplaced : ∃ x, place r (o.metadata.ns.getD "") o = .ok x := by
    have hname : (o.metadata.name.getD "").isEmpty = false := by
      simpa [String.isEmpty_iff] using h
    unfold place
    simp only [hname, Bool.false_eq_true, if_false, Subscription.covers, beq_self_eq_true,
      Bool.or_true, if_true]
    split <;> exact ⟨_, rfl⟩
  obtain ⟨⟨k, o'⟩, hx⟩ := hplaced
  obtain ⟨rfl, rfl⟩ := place_own hx
  exact hx

/-- What is stored at a key is stored there and nowhere else. -/
theorem find?_store (k : ObjectKey) (event : Erased → WatchEvent Erased) (r' : GroupVersionResource)
    (k' : ObjectKey) : (t.store r k o event).2.find? r' k' =
      if r' = r ∧ k' = k then some (t.store r k o event).1 else t.find? r' k' := by
  have hfind : ({ t with version := t.version + 1 } : Tracker).find? r' k' = t.find? r' k' :=
    find?_congr rfl _ _
  unfold store
  dsimp only
  rw [find?_publish, find?_put, hfind]

end Tracker

namespace FakeApi

variable {α : Type} {K : Kind α} {api : FakeApi} {c c' : Clientset} {obj : α} {p : PostParams}

/-- What is to be created or replaced: an object that can be written, with a name and without a
version, and not only for a try. -/
structure Upsertable (K : Kind α) (obj : α) (p : PostParams) : Prop where
  written : ∃ v, K.toJson? obj = .ok v
  named : (K.metadata obj).name.getD "" ≠ ""
  unversioned : (K.metadata obj).resourceVersion.getD "" = ""
  untried : p.dryRun = false

/-- A call that has taken the cluster `c` to `c'` has answered with `b`, which is the object as
it is stored and as it is got from then on, and has left all other objects alone. -/
structure Upserted (K : Kind α) (api : FakeApi) (c c' : Clientset) (obj b : α) : Prop where
  readsBack : ReadsBack K api c c' obj b
  got : ∀ gp, (((api.calls K).get (keyOf K obj).name (keyOf K obj).ns gp).run c').1 = .ok b
  elsewhere : ∀ r k, ¬ (r = api.resource.gvr ∧ k = keyOf K obj) →
    c'.tracker.find? r k = c.tracker.find? r k

/-- An object that can be written can be erased, and is then what its metadata make of it. -/
theorem exists_erase (hK : K.Faithful) (r : ApiResource) (h : ∃ v, K.toJson? obj = .ok v) :
    ∃ o, K.erase r obj = .ok o := by
  obtain ⟨v, hv⟩ := h
  obtain ⟨ms, rfl, hc, hm⟩ := hK.written obj v hv
  obtain ⟨o, hread, -⟩ := Erased.rewritten hc hm
  exact ⟨o.stamp r, by rw [Kind.erase, hv, ok_bind, hread, ok_bind]; rfl⟩

/-- A create or update for which the tracker stores the object at its key succeeds, reads back
and leaves the rest alone. -/
theorem upserted_of_store (hc : c.IsDefault) (hK : K.Faithful) (hobj : Upsertable K obj p)
    (verb : String) (deed : Erased → Deed)
    (hdeed : (∀ o, deed o = .create o p) ∨ ∀ o, deed o = .update o p) {o : Erased}
    (ho : K.erase api.resource obj = .ok o) {m : ObjectMeta} {event : Erased → WatchEvent Erased}
    (hreact : c.tracker.react (api.action ((K.metadata obj).ns.getD "") (deed o)) =
      c.tracker.written .object (.ok (c.tracker.store api.resource.gvr (keyOf K obj)
        { o with metadata := m } event))) :
    ∃ b c', c'.IsDefault ∧ (api.write K verb obj deed).run c = (.ok b, c') ∧
      Upserted K api c c' obj b := by
  set stored := c.tracker.store api.resource.gvr (keyOf K obj) { o with metadata := m } event
  set m' := { m with resourceVersion := some (toString (c.tracker.version + 1)) } with hm'
  have hread : K.restore stored.1 = .ok (K.withMetadata m' obj) :=
    (hK.restore_of_erase ho).2 m'
  have hrun : (api.write K verb obj deed).run c = (.ok (K.withMetadata m' obj),
      { c with
        tracker := stored.2
        journal := c.journal ++ [api.action ((K.metadata obj).ns.getD "") (deed o)] }) := by
    rw [run_write, ho]
    dsimp only
    rw [Clientset.invoke_eq hc, hreact]
    simp only [Tracker.written, Option.getD_some, Except.bind, typed, hread]
  have hback := readsBack_of_write hc hK hobj.untried hdeed hrun
  refine ⟨_, _, ?_, hrun, hback, ?_, ?_⟩
  · exact ⟨hc.objects, hc.watches⟩
  · exact fun gp => hback.gets [] gp (List.forall_mem_nil _)
  · intro r k hrk
    exact (Tracker.find?_store _ _ r k).trans (if_neg hrk)

/-- A create that the tracker refuses fails by its status, and leaves an entry in the journal. -/
theorem run_create_of_refused (hc : c.IsDefault) {o : Erased}
    (ho : K.erase api.resource obj = .ok o) {s : Status}
    (hreact : c.tracker.react (api.action ((K.metadata obj).ns.getD "") (.create o p)) =
      c.tracker.written .object (.error s)) :
    ((api.calls K).create obj p).run c = (.error (.api s), { c with
      journal := c.journal ++ [api.action ((K.metadata obj).ns.getD "") (.create o p)] }) := by
  refine (run_write K api "create" obj (.create · p) c).trans ?_
  rw [ho]
  dsimp only
  rw [Clientset.invoke_eq hc, hreact]
  rfl

/-- Where the key is free the create goes well, and where it is not the update does. -/
theorem upserted_of_isDefault (hc : c.IsDefault) (hK : K.Faithful) (api : FakeApi)
    (hobj : Upsertable K obj p) : ∃ b c', c'.IsDefault ∧
      ((api.calls K).createOrUpdate obj p).run c = (.ok b, c') ∧ Upserted K api c c' obj b := by
  obtain ⟨o, ho⟩ := exists_erase hK api.resource hobj.written
  have hmeta : o.metadata = K.metadata obj := (hK.restore_of_erase ho).1
  have hplace := Tracker.place_own_of_named (r := api.resource.gvr) (hmeta ▸ hobj.named)
  rw [hmeta] at hplace
  rw [ResourceApi.run_createOrUpdate_state]
  cases hf : c.tracker.find? api.resource.gvr (keyOf K obj) with
  | none =>
    have hcreate := Tracker.create_of_absent hplace hf hobj.untried
    obtain ⟨b, c', hc', hrun, hdone⟩ := upserted_of_store hc hK hobj "create"
      (.create · p) (.inl fun _ => rfl) ho (congrArg (c.tracker.written .object) hcreate)
    have hrun' : ((api.calls K).create obj p).run c = (.ok b, c') := hrun
    refine ⟨b, c', hc', ?_, hdone⟩
    rw [hrun']
    exact if_neg (ResourceApi.not_saysPresent_ok b)
  | some old =>
    -- the create fails and leaves an entry in the journal, and the update starts from there
    have hcreate := Tracker.create_of_present (p := p) hplace hf
    set c₁ : Clientset := { c with
      journal := c.journal ++ [api.action ((K.metadata obj).ns.getD "") (.create o p)] }
    set s := Status.alreadyExists api.resource.gvr (keyOf K obj).name
    have hrefused : ((api.calls K).create obj p).run c = (.error (.api s), c₁) :=
      run_create_of_refused hc ho (congrArg (c.tracker.written .object) hcreate)
    have hclaimed := Tracker.claimedVersion_of_unversioned (o := { o with
      metadata := { K.metadata obj with ns := (K.metadata obj).ns.filter (!·.isEmpty) } })
      hobj.unversioned
    have hupdate := Tracker.update_of_present hplace hf hclaimed hobj.untried
    have hc₁ : c₁.IsDefault := ⟨hc.objects, hc.watches⟩
    obtain ⟨b, c', hc', hrun, hback, hgot, helse⟩ := upserted_of_store hc₁ hK hobj
      "update" (.update · p) (.inr fun _ => rfl) ho (congrArg (c.tracker.written .object) hupdate)
    refine ⟨b, c', hc', ?_, ⟨hback.answer, hback.gets⟩, hgot, helse⟩
    rw [hrefused]
    exact (if_pos ⟨s, rfl, rfl⟩).trans hrun

/-- **Create or replace.** On any backend the update is asked for just if the create was refused by
a status that says that the object exists already, and then its outcome stands; otherwise that of
the create does, and nothing more is asked for. Whatever has happened to a fake cluster, an
object of a faithful kind with a name and without a version goes into it in this way: the call
answers with the object as it is stored, under its own metadata but for the version and an empty
namespace, so do all gets of it until something else is written there, and every other object
stays as it is. The same holds of a second object that then takes its place, and it is this that
a get of the key then answers with. -/
theorem upsert_recovers_from_presence_only :
    (∀ (m : Type → Type) [Monad m] [LawfulMonad m] (α : Type) (api : ResourceApi m α) (obj : α)
      (p : PostParams) (asked : List (Request α)),
      (api.createOrUpdate obj p).run = (do
        let x ← (api.create obj p).run
        if ResourceApi.SaysPresent x then (api.update obj p).run else return x) ∧
      (api.noted.createOrUpdate obj p).run.run asked = (do
        let x ← (api.create obj p).run
        if ResourceApi.SaysPresent x then
          let y ← (api.update obj p).run
          return (y, asked ++ [.create obj p, .update obj p])
        else return (x, asked ++ [.create obj p]))) ∧
    ∀ (α : Type) (K : Kind α), K.Faithful → ∀ (s : Scheme) (es : List Clientset.Event)
      (api : FakeApi) (obj : α) (p : PostParams), Upsertable K obj p →
      let c := (Clientset.ofScheme s).after es
      ∃ b c', ((api.calls K).createOrUpdate obj p).run c = (.ok b, c') ∧
        Upserted K api c c' obj b ∧
        ∀ obj₂ p₂, Upsertable K obj₂ p₂ → keyOf K obj₂ = keyOf K obj →
          ∃ b₂ c₂, ((api.calls K).createOrUpdate obj₂ p₂).run c' = (.ok b₂, c₂) ∧
            Upserted K api c' c₂ obj₂ b₂ ∧
            ∀ gp, (((api.calls K).get (keyOf K obj).name (keyOf K obj).ns gp).run c₂).1 = .ok b₂ := by
  refine ⟨?_, ?_⟩
  · intro m _ _ α api obj p asked
    exact ⟨ResourceApi.run_createOrUpdate api obj p,
      ResourceApi.run_noted_createOrUpdate api obj p asked⟩
  · intro α K hK s es api obj p hobj c
    have hc : c.IsDefault := (Clientset.after_eq (Clientset.isDefault_ofScheme s) es).1
    obtain ⟨b, c', hc', hrun, hdone⟩ := upserted_of_isDefault hc hK api hobj
    refine ⟨b, c', hrun, hdone, ?_⟩
    intro obj₂ p₂ hobj₂ hkey
    obtain ⟨b₂, c₂, -, hrun₂, hdone₂⟩ := upserted_of_isDefault hc' hK api hobj₂
    exact ⟨b₂, c₂, hrun₂, hdone₂, fun gp => hkey ▸ hdone₂.got gp⟩

/-- A knife takes the place of something else under its name, and another knife then takes its
place: both times the create is refused and the update goes well. -/
theorem knives_take_the_place_of_others :
    let api : FakeApi := ⟨⟨"test.kubegen.dev", "v1", "Knife", "knives"⟩⟩
    let noon : Timestamp := ⟨⟨2024, 2, 29, by decide⟩, 12, 0, 0, 0⟩
    let made : ObjectMeta := { ObjectMeta.named "a" with creationTimestamp := some noon }
    let knife : Knife := ⟨{ made with ns := some "" }, ["sharp", "blunt"]⟩
    let second : Knife := ⟨.named "a", []⟩
    let other : Erased := ⟨none, .named "a", .null⟩
    let es : List Clientset.Event := [.call (.add api.resource.gvr other)]
    let c := (Clientset.ofScheme .empty).after es
    Knife.asKind.Faithful ∧ Upsertable Knife.asKind knife .none ∧
    Upsertable Knife.asKind second .none ∧ keyOf Knife.asKind second = keyOf Knife.asKind knife ∧
    ResourceApi.SaysPresent (((api.calls Knife.asKind).create knife .none).run c).1 ∧
    ((api.calls Knife.asKind).noted.createOrUpdate knife .none).run.run [] = (do
      let x ← ((api.calls Knife.asKind).create knife .none).run
      if ResourceApi.SaysPresent x then
        let y ← ((api.calls Knife.asKind).update knife .none).run
        return (y, [.create knife .none, .update knife .none])
      else return (x, [.create knife .none])) ∧
    ∃ b c' b₂ c₂, ((api.calls Knife.asKind).createOrUpdate knife .none).run c = (.ok b, c') ∧
      b = ⟨{ made with resourceVersion := some "2" }, ["sharp", "blunt"]⟩ ∧
      ((api.calls Knife.asKind).createOrUpdate second .none).run c' = (.ok b₂, c₂) ∧
      (((api.calls Knife.asKind).get "a" "" ⟨none⟩).run c₂).1 = .ok b₂ := by
  intro api noon made knife second other es c
  have hknife : Upsertable Knife.asKind knife .none := ⟨⟨_, rfl⟩, by decide, by decide, rfl⟩
  have hsecond : Upsertable Knife.asKind second .none := ⟨⟨_, rfl⟩, by decide, by decide, rfl⟩
  have hpresent : ResourceApi.SaysPresent
      (((api.calls Knife.asKind).create knife .none).run c).1 := by decide +kernel
  obtain ⟨hasks, hupserts⟩ := upsert_recovers_from_presence_only
  obtain ⟨b, c', hrun, hdone, hagain⟩ := hupserts Knife Knife.asKind Knife.faithful .empty es api
    knife .none hknife
  obtain ⟨b₂, c₂, hrun₂, -, hgot⟩ := hagain second .none hsecond rfl
  refine ⟨Knife.faithful, hknife, hsecond, rfl, hpresent, ?_, b, c', b₂, c₂, hrun, ?_, hrun₂,
    hgot ⟨none⟩⟩
  · exact (hasks (StateM Clientset) Knife (api.calls Knife.asKind) knife .none []).2
  · rw [hdone.readsBack.answer]
    decide +kernel

end FakeApi
end ClusterKit
