/-
# Names of types as they come

An erased object has a type just if it has come with one `apiVersion` and one
`kind`, and both are texts (`Erased.types_of_reader`). If one of them is missing,
comes again or is no text, the object has no type, whatever the other one says.

Key definitions: `Entries.valuesAt`, `Json.Draft.named`, `Json.Draft.NamesType`.
Key theorems: `Erased.takeTypes_eq_some_iff`, `Erased.types_of_reader`.
-/
import Mathlib.Data.List.Forall2
import ClusterKit.Outcome
import ClusterKit.Wire.Erased

namespace ClusterKit

/-- All that the entries of a list have at a key, in their order. -/
def Entries.valuesAt [DecidableEq κ] (k : κ) (es : List (κ × β)) : List β :=
  es.filterMap fun e => if e.1 = k then some e.2 else none

namespace Entries

variable [DecidableEq κ] {k l : κ} {v : β} {es fs : List (κ × β)}

@[simp] theorem valuesAt_nil : valuesAt k ([] : List (κ × β)) = [] := rfl

theorem valuesAt_cons_self : valuesAt k ((k, v) :: es) = v :: valuesAt k es := by
  simp [valuesAt]

theorem valuesAt_cons_of_ne (h : l ≠ k) : valuesAt k ((l, v) :: es) = valuesAt k es := by
  simp [valuesAt, h]

theorem valuesAt_append : valuesAt k (es ++ fs) = valuesAt k es ++ valuesAt k fs :=
  List.filterMap_append

end Entries

open Entries (valuesAt valuesAt_cons_self valuesAt_cons_of_ne)

/-- The drafts at the members of a name. -/
def Json.Draft.named (name : String) : Json.Draft → List Json.Draft
  | .fields _ ms _ => valuesAt (.text name) ms
  | _ => []

/-- The draft names a type: it has one `apiVersion` and one `kind`, and both are texts. -/
def Json.Draft.NamesType (d : Json.Draft) (t : TypeMeta) : Prop :=
  d.named "apiVersion" = [.scalar (.text t.apiVersion)] ∧ d.named "kind" = [.scalar (.text t.kind)]

/-- Only a text is read as one. -/
theorem Json.Reader.value_eq_text {d : Json.Draft} {s : String} :
    Json.Reader.value d = .ok (.text s) ↔ d = .scalar (.text s) := by
  constructor
  · intro h
    cases d with
    | scalar v =>
      cases v <;> cases h
      rfl
    | broken name e skip => cases h
    | list deep ds close =>
      unfold value at h
      cases deep
      · obtain ⟨vs, -, hv⟩ := bind_eq_ok.mp h
        cases hv
      · cases h
    | fields deep ms close =>
      unfold value at h
      cases deep
      · obtain ⟨vs, -, hv⟩ := bind_eq_ok.mp h
        cases hv
      · cases h
  · rintro rfl
    rfl

namespace Erased

/-! ### Names among members -/

/-- The names of the type are found if each comes once, here or before, and is a text. -/
theorem takeTypes_eq_some_iff {v w : String} (ms : List (String × Json)) :
    ∀ a k : Option String, (takeTypes a k ms).1 = some ⟨v, w⟩ ↔
      (a.map Json.text).toList ++ valuesAt "apiVersion" ms = [.text v] ∧
        (k.map Json.text).toList ++ valuesAt "kind" ms = [.text w] := by
  induction ms with
  | nil =>
    intro a k
    unfold takeTypes
    cases a <;> cases k <;> simp
  | cons e ms ih =>
    intro a k
    obtain ⟨name, value⟩ := e
    unfold takeTypes
    by_cases hv : name = "apiVersion"
    · subst hv
      rw [if_pos rfl, valuesAt_cons_self, valuesAt_cons_of_ne (by decide)]
      cases a with
      | some a => simp
      | none =>
        cases value with
        | text s => exact ih (some s) k
        | _ => simp
    · rw [if_neg hv, valuesAt_cons_of_ne hv]
      by_cases hw : name = "kind"
      · subst hw
        rw [if_pos rfl, valuesAt_cons_self]
        cases k with
        | some k => simp
        | none =>
          cases value with
          | text s => exact ih a (some s)
          | _ => simp
      · rw [if_neg hw, valuesAt_cons_of_ne hw]
        exact ih a k

/-! ### Names in a draft -/

theorem takeMember_eq_ok {s t : Members} {k : String} {d : Json.Draft}
    (h : takeMember s k d = .ok t) : k = "metadata" ∧ t.others = s.others ∨
      k ≠ "metadata" ∧ ∃ v, Json.Reader.value d = .ok v ∧ t.others = (k, v) :: s.others := by
  unfold takeMember at h
  split at h
  · rename_i hk
    split at h
    · cases h
    · obtain ⟨m, -, hm⟩ := bind_eq_ok.mp h
      cases hm
      exact .inl ⟨hk, rfl⟩
  · rename_i hk
    obtain ⟨v, hv, ht⟩ := bind_eq_ok.mp h
    cases ht
    exact .inr ⟨hk, v, hv, rfl⟩

/-- What is taken of members at a name, other than that of the metadata, are their values. -/
theorem valuesAt_of_foldMembers {close : Option Json.ReadError} (name : String)
    (hn : name ≠ "metadata") (ms : List (Json.Name × Json.Draft)) : ∀ {s t : Members},
      Json.Reader.foldMembers takeMember close ms s = .ok t →
      ∃ vs, List.Forall₂ (fun d v => Json.Reader.value d = .ok v) (valuesAt (.text name) ms) vs ∧
        valuesAt name t.others.reverse = valuesAt name s.others.reverse ++ vs := by
  induction ms with
  | nil =>
    intro s t h
    cases close with
    | none =>
      cases h
      exact ⟨[], .nil, (List.append_nil _).symm⟩
    | some e => cases h
  | cons m ms ih =>
    intro s t h
    obtain ⟨key, d⟩ := m
    obtain ⟨k, hk, h⟩ := bind_eq_ok.mp h
    obtain ⟨u, hu, h⟩ := bind_eq_ok.mp h
    obtain ⟨vs, hvs, hothers⟩ := ih h
    cases key with
    | broken e => cases hk
    | text key =>
      obtain rfl := Except.ok.inj hk
      by_cases hname : key = name
      · subst hname
        rcases takeMember_eq_ok hu with ⟨hmeta, -⟩ | ⟨-, v, hv, hcons⟩
        · exact absurd hmeta hn
        · refine ⟨v :: vs, ?_, ?_⟩
          · rw [valuesAt_cons_self]
            exact .cons hv hvs
          · rw [hothers, hcons, List.reverse_cons, Entries.valuesAt_append, valuesAt_cons_self,
              Entries.valuesAt_nil, List.append_assoc]
            rfl
      · have hskip : valuesAt (.text name) ((Json.Name.text key, d) :: ms) =
            valuesAt (.text name) ms :=
          valuesAt_cons_of_ne fun h => hname (Json.Name.text.inj h)
        refine ⟨vs, hskip ▸ hvs, ?_⟩
        rcases takeMember_eq_ok hu with ⟨-, hsame⟩ | ⟨-, v, -, hcons⟩
        · rw [hothers, hsame]
        · rw [hothers, hcons, List.reverse_cons, Entries.valuesAt_append,
            valuesAt_cons_of_ne hname, Entries.valuesAt_nil, List.append_nil]

/-- One value is a text just if its draft is. -/
theorem eq_text_iff_of_forall₂ {ds : List Json.Draft} {vs : List Json} {s : String}
    (h : List.Forall₂ (fun d v => Json.Reader.value d = .ok v) ds vs) :
    vs = [.text s] ↔ ds = [.scalar (.text s)] := by
  constructor
  · rintro rfl
    obtain ⟨d, ds, hd, hds, rfl⟩ := List.forall₂_cons_right_iff.mp h
    rw [List.forall₂_nil_right_iff.mp hds, Json.Reader.value_eq_text.mp hd]
  · rintro rfl
    obtain ⟨v, vs, hv, hvs, rfl⟩ := List.forall₂_cons_left_iff.mp h
    rw [List.forall₂_nil_left_iff.mp hvs, ← Except.ok.inj hv]
    rfl

/-- An object has a type just if it has come with its names. -/
theorem types_of_reader {d : Json.Draft} {o : Erased} (h : reader d = .ok o) (t : TypeMeta) :
    o.types = some t ↔ d.NamesType t := by
  obtain ⟨s, hs, ho⟩ := bind_eq_ok.mp h
  cases ho
  cases d with
  | fields deep ms close =>
    cases deep with
    | true => cases hs
    | false =>
      obtain ⟨vs, hvs, hversions⟩ := valuesAt_of_foldMembers "apiVersion" (by decide) ms hs
      obtain ⟨ks, hks, hkinds⟩ := valuesAt_of_foldMembers "kind" (by decide) ms hs
      show (takeTypes none none s.others.reverse).1 = some ⟨t.apiVersion, t.kind⟩ ↔ _
      rw [takeTypes_eq_some_iff, hversions, hkinds]
      exact and_congr (eq_text_iff_of_forall₂ hvs) (eq_text_iff_of_forall₂ hks)
  | scalar v => cases hs
  | broken name e skip => cases hs
  | list deep ds close => cases hs

end Erased
end ClusterKit
