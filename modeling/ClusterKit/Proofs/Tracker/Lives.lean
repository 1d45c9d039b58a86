/-
# The lives of an object

What a subscription is told of one object are the lives of the object, one after the
other: it is added, modified any number of times, and deleted, as what it was when it was
told of last. An object that is there when the subscription begins is in the middle of a
life, and one that is there at the end has not come to the end of it (`Lives`). The
versions that a subscription is told of grow from event to event, over all objects.

Key definitions: `Erased.key`, `WatchEvent.present?`, `Lives`, `EventType.life`.
Key theorems: `Lives.pattern`, `Tracker.lives_run`, `Tracker.versions_run`,
`Tracker.objects_live_through_their_events`.
-/
import Mathlib.Computability.Language
import ClusterKit.Proofs.Tracker.Fanout

namespace ClusterKit

open scoped Computability

/-- The key under which the object says that it belongs. -/
def Erased.key (o : Erased) : ObjectKey :=
  ⟨o.metadata.ns.getD "", o.metadata.name.getD ""⟩

namespace WatchEvent

/-- The object that is there after the event. -/
def present? : WatchEvent α → Option α
  | .added o => some o
  | .modified o => some o
  | _ => none

/-- The key of the object that the event is about. -/
def key? (e : WatchEvent Erased) : Option ObjectKey :=
  e.object?.map Erased.key

end WatchEvent

@[simp] theorem Change.present?_event (c : Change α) : c.event.present? = c.result? := by
  cases c <;> rfl

/-! ### Lives -/

/-- The events lead from what is there before them to what is there after them: an object is
added where there is none, and modified or deleted where there is one, as which it is
deleted. -/
inductive Lives : Option α → List (WatchEvent α) → Option α → Prop
  | still (x : Option α) : Lives x [] x
  | added {o : α} {es : List (WatchEvent α)} {y : Option α} (hrest : Lives (some o) es y) :
      Lives none (.added o :: es) y
  | modified {o o' : α} {es : List (WatchEvent α)} {y : Option α} (hrest : Lives (some o') es y) :
      Lives (some o) (.modified o' :: es) y
  | deleted {o : α} {es : List (WatchEvent α)} {y : Option α} (hrest : Lives none es y) :
      Lives (some o) (.deleted o :: es) y

namespace Lives

variable {x y z : Option α} {es es' : List (WatchEvent α)}

/-- The event of a change leads from what was there to what is there. -/
theorem of_between {c : Change α} (h : Change.between? x c.result? = some c) :
    Lives x [c.event] c.result? := by
  cases c with
  | added o =>
    cases x with
    | none => exact .added (.still _)
    | some old => cases h
  | modified o =>
    cases x with
    | none => cases h
    | some old => exact .modified (.still _)
  | deleted o =>
    cases x with
    | none => cases h
    | some old =>
      obtain rfl := Change.deleted.inj (Option.some.inj h)
      exact .deleted (.still _)

theorem append (h : Lives x es y) (h' : Lives y es' z) : Lives x (es ++ es') z := by
  induction h with
  | still x => exact h'
  | added _ ih => exact .added (ih h')
  | modified _ ih => exact .modified (ih h')
  | deleted _ ih => exact .deleted (ih h')

theorem split (h : Lives x (es ++ es') z) : ∃ y, Lives x es y ∧ Lives y es' z := by
  induction es generalizing x with
  | nil => exact ⟨x, .still x, h⟩
  | cons e es ih =>
    cases h with
    | added hrest =>
      obtain ⟨y, h, h'⟩ := ih hrest
      exact ⟨y, .added h, h'⟩
    | modified hrest =>
      obtain ⟨y, h, h'⟩ := ih hrest
      exact ⟨y, .modified h, h'⟩
    | deleted hrest =>
      obtain ⟨y, h, h'⟩ := ih hrest
      exact ⟨y, .deleted h, h'⟩

/-- What is there after the events is what the last of them says. -/
theorem eq_present? (h : Lives x es y) : y = es.getLast?.elim x WatchEvent.present? := by
  have hcons : ∀ (e : WatchEvent α) (es : List (WatchEvent α)) (x : Option α),
      (e :: es).getLast?.elim x WatchEvent.present? =
        es.getLast?.elim e.present? WatchEvent.present? := by
    intro e es x
    rw [List.getLast?_cons]
    cases es.getLast? <;> rfl
  induction h with
  | still x => rfl
  | added _ ih => rw [hcons]; exact ih
  | modified _ ih => rw [hcons]; exact ih
  | deleted _ ih => rw [hcons]; exact ih

/-- An object is deleted as what it was when it was told of last, or before the events. -/
theorem present?_of_deleted {es₁ es₂ : List (WatchEvent α)} {o : α}
    (h : Lives x (es₁ ++ .deleted o :: es₂) z) :
    es₁.getLast?.elim x WatchEvent.present? = some o := by
  obtain ⟨y, h₁, h₂⟩ := h.split
  rw [← h₁.eq_present?]
  cases h₂
  rfl

end Lives

/-! ### The pattern of a life -/

namespace EventType

/-- The types of the events of one life: added, then any number of times modified, then
deleted. -/
def life : Language EventType :=
  {[.added]} * {[.modified]}∗ * {[.deleted]}

/-- The types of the events from within a life on. -/
def onward : Language EventType :=
  {[.modified]}∗ * ({[.deleted]} * life∗)

theorem cons_mem_mul {a : EventType} {l : Language EventType} {w : List EventType} (h : w ∈ l) :
    a :: w ∈ {[a]} * l :=
  Language.append_mem_mul (a := [a]) (Set.mem_singleton [a]) h

theorem added_mem_lives {w : List EventType} (h : w ∈ onward) : .added :: w ∈ life∗ := by
  have hlives : .added :: w ∈ {[.added]} * onward := cons_mem_mul h
  rw [onward, ← mul_assoc, ← mul_assoc] at hlives
  exact Set.mem_of_mem_of_subset hlives (mul_kstar_le_kstar (a := life))

theorem modified_mem_onward {w : List EventType} (h : w ∈ onward) : .modified :: w ∈ onward := by
  have honward : .modified :: w ∈ {[.modified]} * onward := cons_mem_mul h
  rw [onward, ← mul_assoc] at honward
  exact Set.mem_of_mem_of_subset honward
    (mul_le_mul_left (mul_kstar_le_kstar (a := ({[.modified]} : Language EventType))) _)

theorem deleted_mem_onward {w : List EventType} (h : w ∈ life∗) : .deleted :: w ∈ onward :=
  Language.append_mem_mul (Language.nil_mem_kstar _) (cons_mem_mul h)

end EventType

/-- The types of the events about an object, from the beginning of the life that it is in the
middle of, if it is, and to the end of the life that it is in the middle of then: they are
those of whole lives. -/
theorem Lives.pattern {x y : Option α} {es : List (WatchEvent α)} (h : Lives x es y) :
    (x.map fun _ => EventType.added).toList ++ es.map (·.type) ++
      (y.map fun _ => EventType.deleted).toList ∈ EventType.life∗ := by
  have honward : (x = none → es.map (·.type) ++ (y.map fun _ => EventType.deleted).toList ∈
        EventType.life∗) ∧
      (x.isSome → es.map (·.type) ++ (y.map fun _ => EventType.deleted).toList ∈
        EventType.onward) := by
    induction h with
    | still x =>
      refine ⟨?_, fun hx => ?_⟩
      · rintro rfl
        exact Language.nil_mem_kstar _
      · obtain ⟨o, rfl⟩ := Option.isSome_iff_exists.mp hx
        exact EventType.deleted_mem_onward (Language.nil_mem_kstar _)
    | added _ ih => exact ⟨fun _ => EventType.added_mem_lives (ih.2 rfl), nofun⟩
    | modified _ ih => exact ⟨nofun, fun _ => EventType.modified_mem_onward (ih.2 rfl)⟩
    | deleted _ ih => exact ⟨nofun, fun _ => EventType.deleted_mem_onward (ih.1 rfl)⟩
  rw [List.append_assoc]
  cases x with
  | none => exact honward.1 rfl
  | some o => exact EventType.added_mem_lives (honward.2 rfl)

namespace Tracker

variable {r : GroupVersionResource} {ns : String}

/-! ### The events of one object -/

/-- The events about the object at a key. -/
def eventsAt (k : ObjectKey) (es : List (WatchEvent Erased)) : List (WatchEvent Erased) :=
  es.filter fun e => e.key? = some k

theorem eventsAt_append (k : ObjectKey) (es es' : List (WatchEvent Erased)) :
    eventsAt k (es ++ es') = eventsAt k es ++ eventsAt k es' :=
  List.filter_append ..

namespace Entry

/-- The event of a mutation is about the object at its key. -/
theorem Makes.key?_event {e : Entry} {m : Mutation} (h : e.Makes m) (hp : e.before.Placed) :
    m.change.event.key? = some m.key := by
  rw [WatchEvent.key?, Change.object?_event]
  exact congrArg some (h.object_isAt hp).key_eq

/-- A change is told by an event about the object at a key that is covered. -/
theorem key?_of_change? {e : Entry} (hp : e.before.Placed) {c : Change Erased}
    (h : e.change? r ns = some c) :
    ∃ m, e.Makes m ∧ m.resource = r ∧ Subscription.covers ns m.key.ns = true ∧
      m.change = c ∧ c.event.key? = some m.key := by
  rcases e.quiet_or_makes with hq | ⟨m, hm⟩
  · rw [hq.change?] at h
    cases h
  · rw [hm.change?] at h
    split at h
    · rename_i hw
      obtain rfl := Option.some.inj h
      exact ⟨m, hm, hw.1, hw.2, rfl, hm.key?_event hp⟩
    · cases h

/-- The step of a life: what a call tells of the object at a key leads from what is there
before the call to what is there after it. -/
theorem lives_step {e : Entry} (hp : e.before.Placed) {k : ObjectKey}
    (hcov : Subscription.covers ns k.ns = true) :
    Lives (e.before.find? r k) (eventsAt k ((e.change? r ns).toList.map Change.event))
      (e.after.find? r k) := by
  by_cases ht : e.Touches r k
  · obtain ⟨c, hm⟩ := ht.makes
    have hkey : c.event.key? = some k := hm.key?_event hp
    have hevents : eventsAt k ((e.change? r ns).toList.map Change.event) = [c.event] := by
      rw [hm.change?, if_pos ⟨rfl, hcov⟩]
      simp [eventsAt, hkey]
    rw [hevents, show e.after.find? r k = c.result? from hm.find?_after]
    exact .of_between hm.fits.change
  · have hevents : eventsAt k ((e.change? r ns).toList.map Change.event) = [] := by
      cases hc : e.change? r ns with
      | none => rfl
      | some c =>
        obtain ⟨m, hm, rfl, -, -, hkey⟩ := key?_of_change? hp hc
        have hne : m.key ≠ k := fun hk => ht (hk ▸ hm.touches)
        simp [eventsAt, hkey, hne]
    rw [hevents, find?_after_of_not_touches ht]
    exact .still _

end Entry

/-- What a run tells of the object at a key are its lives. -/
theorem lives_run {k : ObjectKey} (hcov : Subscription.covers ns k.ns = true) (cs : List Call) :
    ∀ {t : Tracker}, t.Placed →
      Lives (t.find? r k) (eventsAt k ((t.changes r ns cs).map Change.event))
        ((t.run cs).find? r k) := by
  induction cs with
  | nil => exact fun _ => .still _
  | cons c cs ih =>
    intro t hp
    have hstep := Entry.lives_step (e := ⟨t, c⟩) (r := r) hp hcov
    rw [changes_cons, List.map_append, eventsAt_append]
    exact hstep.append (ih (Entry.placed_after (e := ⟨t, c⟩) hp))

/-- A run tells of objects at keys that are covered. -/
theorem key?_of_changes (cs : List Call) : ∀ {t : Tracker}, t.Placed →
    ∀ c ∈ t.changes r ns cs, ∃ k, c.event.key? = some k ∧ Subscription.covers ns k.ns = true := by
  induction cs with
  | nil => exact fun _ c hc => nomatch hc
  | cons d cs ih =>
    intro t hp c hc
    rw [changes_cons, List.mem_append, Option.mem_toList] at hc
    rcases hc with hc | hc
    · obtain ⟨m, -, -, hcov, -, hkey⟩ := Entry.key?_of_change? hp hc
      exact ⟨m.key, hkey, hcov⟩
    · exact ih (Entry.placed_after (e := ⟨t, d⟩) hp) c hc

/-! ### Versions -/

/-- What a call stores and tells of has the version that it leads to. -/
theorem Entry.version_of_change? {e : Entry} (hp : e.before.Placed) {c : Change Erased}
    {o : Erased} (h : e.change? r ns = some c) (ho : c.result? = some o) :
    e.before.version < e.after.version ∧
      o.metadata.resourceVersion = some (toString e.after.version) := by
  obtain ⟨m, hm, rfl, -, rfl, -⟩ := Entry.key?_of_change? hp h
  have hstores : e.Stores m.resource m.key o := ⟨hm.touches, hm.find?_after.trans ho⟩
  obtain ⟨hv, hr⟩ := hstores.version
  exact ⟨by omega, hr⟩

variable (r ns) in
/-- The versions that a run tells of grow, from beyond the version that it begins with. -/
theorem versions_run (cs : List Call) : ∀ {t : Tracker}, t.Placed →
    ∃ vs : List Nat, (t.version :: vs).Pairwise (· < ·) ∧
      ((t.changes r ns cs).filterMap Change.result?).map (·.metadata.resourceVersion) =
        vs.map fun v => some (toString v) := by
  induction cs with
  | nil => exact fun _ => ⟨[], List.pairwise_singleton _ _, rfl⟩
  | cons c cs ih =>
    intro t hp
    set e : Entry := ⟨t, c⟩
    obtain ⟨vs, hgrow, hvs⟩ := ih (Entry.placed_after (e := e) hp)
    have hle : t.version ≤ e.after.version := e.version_le_after
    have hbeyond : ∀ v ∈ vs, e.after.version < v := (List.pairwise_cons.mp hgrow).1
    have hrest : (t.version :: vs).Pairwise (· < ·) :=
      List.pairwise_cons.mpr ⟨fun v hv => lt_of_le_of_lt hle (hbeyond v hv), hgrow.of_cons⟩
    rw [changes_cons, List.filterMap_append, List.map_append]
    cases hc : e.change? r ns with
    | none => exact ⟨vs, hrest, hvs⟩
    | some d =>
      cases hd : d.result? with
      | none => exact ⟨vs, hrest, by simpa [hd] using hvs⟩
      | some o =>
        obtain ⟨hlt, hversion⟩ := Entry.version_of_change? hp hc hd
        refine ⟨e.after.version :: vs, ?_, by simpa [hd, hversion] using hvs⟩
        exact List.pairwise_cons.mpr ⟨List.forall_mem_cons.mpr
          ⟨hlt, fun v hv => lt_of_le_of_lt hle (hbeyond v hv)⟩, hgrow⟩

/-! ### Subscriptions -/

/-- **The lives of objects.** Subscribe to a namespace of a collection in any reachable
tracker, and let any run follow that does not end this subscription. Every event tells of an
object at a key of the namespace. The events about one of them are its lives, from what is
there when the subscription begins: added, modified any number of times and deleted,
over and over; and each time the object is deleted as what it was when it was
told of last, or when the subscription began. The versions of what is added or
modified grow over all events, as numbers. -/
theorem objects_live_through_their_events (before after : List Call) (r : GroupVersionResource)
    (ns : String) (hopen : ∀ c ∈ after, c.ends ((empty.run before).watch r ns).1 = false) :
    let id := ((empty.run before).watch r ns).1
    let t := ((empty.run before).watch r ns).2
    let es := t.delivered id after
    (∀ e ∈ es, ∃ k, e.key? = some k ∧ Subscription.covers ns k.ns = true) ∧
    (∀ k, Subscription.covers ns k.ns = true →
      let first := t.find? r k
      let last := (t.run after).find? r k
      Lives first (eventsAt k es) last ∧
      (first.map fun _ => EventType.added).toList ++ (eventsAt k es).map (·.type) ++
        (last.map fun _ => EventType.deleted).toList ∈
          (({[.added]} * {[.modified]}∗ * {[.deleted]} : Language EventType)∗) ∧
      ∀ es₁ o es₂, eventsAt k es = es₁ ++ .deleted o :: es₂ →
        es₁.getLast?.elim first WatchEvent.present? = some o) ∧
    ∃ vs : List Nat, (t.version :: vs).Pairwise (· < ·) ∧
      (es.filterMap WatchEvent.present?).map (·.metadata.resourceVersion) =
        vs.map fun v => some (toString v) := by
  intro id t es
  have hp : t.Placed := placed_run placed_empty before
  have hes : es = (t.changes r ns after).map Change.event :=
    delivered_eq (isSubscribed_watch _ r ns) hp hopen
  rw [hes]
  refine ⟨?_, ?_, ?_⟩
  · intro e he
    obtain ⟨c, hc, rfl⟩ := List.mem_map.mp he
    exact key?_of_changes after hp c hc
  · intro k hcov first last
    have hlives : Lives first _ last := lives_run hcov after hp
    refine ⟨hlives, hlives.pattern, fun es₁ o es₂ hsplit => ?_⟩
    rw [hsplit] at hlives
    exact hlives.present?_of_deleted
  · obtain ⟨vs, hgrow, hvs⟩ := versions_run r ns after hp
    refine ⟨vs, hgrow, ?_⟩
    rw [List.filterMap_map, ← hvs]
    congr 2
    funext c
    exact c.present?_event

/-- A config map that is there when the subscription begins, and is there again at the end: the
subscription is told of the end of one life and the beginning of another, whatever happens to
another config map in between. -/
theorem config_map_lives_again :
    let r : GroupVersionResource := ⟨"", "v1", "configmaps"⟩
    let a : Erased := ⟨none, .named "a", .null⟩
    let before : List Call := [.create r "x" a .none]
    let after : List Call := [.update r "x" a .none, .create r "x" ⟨none, .named "b", .null⟩ .none,
      .drain 0, .delete r "x" "a" .none, .add r (a.within "x")]
    let t := ((empty.run before).watch r "x").2
    let es := t.delivered 0 after
    (∀ c ∈ after, c.ends ((empty.run before).watch r "x").1 = false) ∧
    (eventsAt ⟨"x", "a"⟩ es).map (·.type) = [.modified, .deleted, .added] ∧
    Lives (t.find? r ⟨"x", "a"⟩) (eventsAt ⟨"x", "a"⟩ es) ((t.run after).find? r ⟨"x", "a"⟩) ∧
    ∃ vs : List Nat, (t.version :: vs).Pairwise (· < ·) ∧
      (es.filterMap WatchEvent.present?).map (·.metadata.resourceVersion) =
        vs.map fun v => some (toString v) := by
  intro r a before after t es
  have hopen : ∀ c ∈ after, c.ends ((empty.run before).watch r "x").1 = false := by decide
  obtain ⟨-, hlives, hversions⟩ := objects_live_through_their_events before after r "x" hopen
  exact ⟨hopen, by decide +kernel, (hlives ⟨"x", "a"⟩ rfl).1, hversions⟩

end Tracker
end ClusterKit
