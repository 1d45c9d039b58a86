/-
# Chains of reactors

A cluster begins with the reactors that answer from its tracker, and reactors that
go by rules may be put in front of these or behind them. An action is offered to
one after the other, and the first that answers decides. A rule leaves the
tracker alone. The tracker answers everything that it is asked in these chains, so
what stands behind it is never asked.

Key definitions: `offer`, `Rules`, `Rules.first?`, `Rules.inFront?`, `Clientset.HasRules`.
Key theorems: `Rules.first?_eq`, `Clientset.HasRules.invoke_eq`,
`Clientset.HasRules.invokeWatch_eq`.
-/
import ClusterKit.Proofs.Fake.Cluster
import ClusterKit.Proofs.Tracker.SameStore

namespace ClusterKit

variable {β : Type}

/-- A rule by which a reactor goes, with the pattern that it is registered for. -/
abbrev Rule (β : Type) := Pattern × (Action → Reaction β)

/-- What a rule says to an action; it passes on what its pattern does not match. -/
def offer (a : Action) (x : Rule β) : Reaction β :=
  if x.1.suits a then x.2 a else none

/-- The rules around the reactor of the tracker, in the order in which they are asked. -/
structure Rules (β : Type) where
  front : List (Rule β)
  back : List (Rule β)

namespace Rules

/-- What the first of all reactors says that does not pass, if the tracker says `own`. -/
def first? (x : Rules β) (own : Reaction β) (a : Action) : Reaction β :=
  (x.front.map (offer a) ++ own :: x.back.map (offer a)).findSome? id

/-- What the first rule in front of the tracker says that does not pass. -/
def inFront? (x : Rules β) (a : Action) : Reaction β :=
  x.front.findSome? (offer a)

/-- Where the tracker does not pass, nothing behind it counts. -/
theorem first?_eq (x : Rules β) {own : Reaction β} (h : own.isSome = true) (a : Action) :
    x.first? own a = (x.inFront? a).or own := by
  obtain ⟨o, rfl⟩ := Option.isSome_iff_exists.mp h
  simp [first?, inFront?, List.findSome?_append, List.findSome?_map]

end Rules

/-! ### Asking rules -/

namespace ObjectReactor

/-- The reactors by rules. -/
def ofRules (rules : List (Rule Reply)) : List (Pattern × ObjectReactor) :=
  rules.map fun x => (x.1, .rule x.2)

/-- Rules are asked in their order, and leave themselves and the tracker as they are. -/
theorem ask_ofRules (a : Action) (t : Tracker) (rest : List (Pattern × ObjectReactor))
    (rules : List (Rule Reply)) : ask a t (ofRules rules ++ rest) =
      match rules.findSome? (offer a) with
      | some outcome => (some outcome, ofRules rules ++ rest, t)
      | none => ((ask a t rest).1, ofRules rules ++ (ask a t rest).2.1, (ask a t rest).2.2) := by
  induction rules with
  | nil => rfl
  | cons x rules ih =>
    obtain ⟨p, f⟩ := x
    have hask : ask a t (ofRules ((p, f) :: rules) ++ rest) =
        match offer a (p, f) with
        | some outcome => (some outcome, ofRules ((p, f) :: rules) ++ rest, t)
        | none => ((ask a t (ofRules rules ++ rest)).1,
            (p, .rule f) :: (ask a t (ofRules rules ++ rest)).2.1,
            (ask a t (ofRules rules ++ rest)).2.2) := by
      show ask a t ((p, .rule f) :: (ofRules rules ++ rest)) = _
      rw [ask]
      unfold offer
      by_cases hp : p.suits a = true
      · simp only [if_pos hp, react]
        cases f a <;> rfl
      · simp only [if_neg hp]
    rw [hask, List.findSome?_cons]
    cases offer a (p, f) with
    | some outcome => rfl
    | none =>
      dsimp only
      rw [ih]
      cases rules.findSome? (offer a) <;> rfl

end ObjectReactor

namespace WatchReactor

/-- The reactors to watches by rules. -/
def ofRules (rules : List (Rule RawSource)) : List (Pattern × WatchReactor) :=
  rules.map fun x => (x.1, .rule x.2)

/-- Rules are asked in their order, and leave the tracker as it is. -/
theorem ask_ofRules (a : Action) (t : Tracker) (rest : List (Pattern × WatchReactor))
    (rules : List (Rule RawSource)) : ask a t (ofRules rules ++ rest) =
      match rules.findSome? (offer a) with
      | some outcome => (some outcome, t)
      | none => ask a t rest := by
  induction rules with
  | nil => rfl
  | cons x rules ih =>
    obtain ⟨p, f⟩ := x
    have hask : ask a t (ofRules ((p, f) :: rules) ++ rest) =
        match offer a (p, f) with
        | some outcome => (some outcome, t)
        | none => ask a t (ofRules rules ++ rest) := by
      show ask a t ((p, .rule f) :: (ofRules rules ++ rest)) = _
      rw [ask]
      unfold offer
      by_cases hp : p.suits a = true
      · simp only [if_pos hp, react]
        cases f a <;> rfl
      · simp only [if_neg hp]
    rw [hask, List.findSome?_cons]
    cases offer a (p, f) with
    | some outcome => rfl
    | none =>
      dsimp only
      exact ih

end WatchReactor

/-! ### Asking the tracker -/

/-- Whether the action is a watch. -/
def Action.isWatch (a : Action) : Bool :=
  match a.deed with
  | .watch _ => true
  | _ => false

namespace Tracker

variable (t : Tracker) {a : Action}

/-- The tracker has an answer to every action that is no watch. -/
theorem isSome_react (h : a.isWatch = false) : (t.react a).1.isSome = true := by
  obtain ⟨r, ns, d⟩ := a
  cases d with
  | watch p => cases h
  | _ => exact (t.react_call rfl).1

/-- The tracker has an answer to every watch. -/
theorem isSome_reactWatch (h : a.isWatch = true) : (t.reactWatch a).1.isSome = true := by
  obtain ⟨r, ns, d⟩ := a
  cases d with
  | watch p =>
    unfold reactWatch
    dsimp only
    cases selector r p <;> rfl
  | _ => cases h

theorem obey_of_watch (h : a.isWatch = true) : t.obey a = (t.reactWatch a).2 := by
  obtain ⟨r, ns, d⟩ := a
  cases d with
  | watch p => rfl
  | _ => cases h

theorem obey_of_not_watch (h : a.isWatch = false) : t.obey a = (t.react a).2 := by
  obtain ⟨r, ns, d⟩ := a
  cases d with
  | watch p => cases h
  | _ => rfl

end Tracker

/-! ### Clusters with rules -/

namespace Clientset

/-- The cluster has the reactors that it begins with, and rules around them. -/
structure HasRules (x : Rules Reply) (w : Rules RawSource) (c : Clientset) : Prop where
  objects : c.objectChain = ObjectReactor.ofRules x.front ++
    (⟨"*", "*"⟩, .shared) :: ObjectReactor.ofRules x.back
  watches : c.watchChain = WatchReactor.ofRules w.front ++
    (⟨"watch", "*"⟩, .shared) :: WatchReactor.ofRules w.back

namespace HasRules

variable {x : Rules Reply} {w : Rules RawSource} {c : Clientset} (h : c.HasRules x w) {a : Action}

include h

/-- An action is answered by the first rule in front of the tracker that does not pass on it,
which leaves the tracker alone, or else by the tracker. -/
theorem invoke_eq (ha : a.isWatch = false) :
    c.invoke a = ((x.first? (c.tracker.react a).1 a).getD (.error (unhandled a)),
      { c with
        tracker := if (x.inFront? a).isSome then c.tracker else c.tracker.obey a
        journal := c.journal ++ [a] }) := by
  have hown := c.tracker.isSome_react ha
  have hshared : ObjectReactor.ask a c.tracker
      ((⟨"*", "*"⟩, .shared) :: ObjectReactor.ofRules x.back) =
        ((c.tracker.react a).1, (⟨"*", "*"⟩, .shared) :: ObjectReactor.ofRules x.back,
          (c.tracker.react a).2) := by
    obtain ⟨o, ho⟩ := Option.isSome_iff_exists.mp hown
    have hsuits : Pattern.suits ⟨"*", "*"⟩ a = true := rfl
    simp only [ObjectReactor.ask, hsuits, if_true, ObjectReactor.react, ho]
  have hask := ObjectReactor.ask_ofRules a c.tracker
    ((⟨"*", "*"⟩, .shared) :: ObjectReactor.ofRules x.back) x.front
  rw [hshared, ← h.objects] at hask
  rw [x.first?_eq hown, Tracker.obey_of_not_watch _ ha, Clientset.invoke, hask, Rules.inFront?]
  cases x.front.findSome? (offer a) <;> rfl

/-- It is the same with watches. -/
theorem invokeWatch_eq (ha : a.isWatch = true) :
    c.invokeWatch a = ((w.first? (c.tracker.reactWatch a).1 a).getD (.error (unhandled a)),
      { c with
        tracker := if (w.inFront? a).isSome then c.tracker else c.tracker.obey a
        journal := c.journal ++ [a] }) := by
  have hown := c.tracker.isSome_reactWatch ha
  have hshared : WatchReactor.ask a c.tracker
      ((⟨"watch", "*"⟩, .shared) :: WatchReactor.ofRules w.back) = c.tracker.reactWatch a := by
    have hsuits : Pattern.suits ⟨"watch", "*"⟩ a = true := by
      obtain ⟨r, ns, d⟩ := a
      cases d with
      | watch p => rfl
      | _ => cases ha
    obtain ⟨o, ho⟩ := Option.isSome_iff_exists.mp hown
    have hanswer : c.tracker.reactWatch a = (some o, (c.tracker.reactWatch a).2) :=
      Prod.ext ho rfl
    rw [WatchReactor.ask, if_pos hsuits, WatchReactor.react, hanswer]
  have hask := WatchReactor.ask_ofRules a c.tracker
    ((⟨"watch", "*"⟩, .shared) :: WatchReactor.ofRules w.back) w.front
  rw [hshared, ← h.watches] at hask
  rw [w.first?_eq hown, Tracker.obey_of_watch _ ha, Clientset.invokeWatch, hask, Rules.inFront?]
  cases w.front.findSome? (offer a) <;> rfl

end HasRules
end Clientset
end ClusterKit
