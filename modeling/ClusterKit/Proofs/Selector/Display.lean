/-
# Written selectors

A selector that is written out reads back as itself just if it is well-formed:
its keys and values have no characters but their own, its keys are not empty,
and each of its sets has a value that is not empty. Whatever is read is
well-formed, so that reading once and writing out settles the text.

Key definitions: `Requirement.IsWellFormed`, `Selector.IsWellFormed`.
Key theorems: `Selector.written_text`, `Selector.isWellFormed_of_written`,
`Selector.text_reads_back_just_if_wellFormed`.
-/
import ClusterKit.Proofs.Selector.Grammar
import ClusterKit.Proofs.Table

namespace ClusterKit

open Text (AllBlank)

namespace Requirement

/-! ### Requirements -/

/-- A set that reads back: its key and its values are valid, and one value is not empty. -/
def IsWellFormedSet (k : String) (vs : TextSet) : Prop :=
  isKey k.toList = true ∧ (∀ v ∈ vs.toList, isValue v.toList = true) ∧ ∃ v ∈ vs.toList, v ≠ ""

instance (k : String) (vs : TextSet) : Decidable (IsWellFormedSet k vs) :=
  inferInstanceAs (Decidable (_ ∧ _ ∧ _))

/-- A requirement that reads back. -/
def IsWellFormed : Requirement → Prop
  | .oneOf k vs => IsWellFormedSet k vs
  | .noneOf k vs => IsWellFormedSet k vs
  | .equal k v => isKey k.toList = true ∧ isValue v.toList = true
  | .notEqual k v => isKey k.toList = true ∧ isValue v.toList = true
  | .present k => isKey k.toList = true
  | .absent k => isKey k.toList = true

instance : DecidablePred IsWellFormed
  | .oneOf k vs => inferInstanceAs (Decidable (IsWellFormedSet k vs))
  | .noneOf k vs => inferInstanceAs (Decidable (IsWellFormedSet k vs))
  | .equal _ _ => inferInstanceAs (Decidable (_ ∧ _))
  | .notEqual _ _ => inferInstanceAs (Decidable (_ ∧ _))
  | .present _ => inferInstanceAs (Decidable (_ = true))
  | .absent _ => inferInstanceAs (Decidable (_ = true))

variable {cs p inside : List Char} {k : String} {vs : TextSet} {r : Requirement}

theorem KeyIn.isKey_eq_true (h : KeyIn p k) : isKey k.toList = true :=
  isKey_eq_true_iff.mpr h.valid

theorem ValueIn.isValue_eq_true {v : String} (h : ValueIn p v) : isValue v.toList = true :=
  isValue_eq_true_iff.mpr h.valid

theorem isWellFormedSet_of_values {xs : List String} (hk : IsKey k.toList)
    (h : ValuesIn inside xs) (hvs : ∀ v, v ∈ vs.toList ↔ v ∈ xs) : IsWellFormedSet k vs := by
  obtain ⟨parts, -, -, hvalues, x, hx, hne⟩ := h
  have hvalid : ∀ x ∈ xs, isValue x.toList = true :=
    ((List.forall₂_and_left xs parts).mp
      (hvalues.flip.imp fun _ _ hv => ⟨ValueIn.isValue_eq_true hv, hv⟩)).1
  exact ⟨isKey_eq_true_iff.mpr hk, fun v hv => hvalid v ((hvs v).mp hv), x, (hvs x).mpr hx, hne⟩

theorem isWellFormed_of_written (h : Written cs r) : r.IsWellFormed := by
  cases h with
  | present hk => exact isKey_eq_true_iff.mpr hk
  | absent hk => exact hk.isKey_eq_true
  | equal hk hv => exact ⟨hk.isKey_eq_true, hv.isValue_eq_true⟩
  | equalTwice hk hv => exact ⟨hk.isKey_eq_true, hv.isValue_eq_true⟩
  | notEqual hk hv => exact ⟨hk.isKey_eq_true, hv.isValue_eq_true⟩
  | set hword hk hvs hs =>
    cases hword with
    | oneOf => exact isWellFormedSet_of_values hk.isKey hvs hs
    | noneOf => exact isWellFormedSet_of_values hk.isKey hvs hs

theorem valuesIn_text (hvalid : ∀ v ∈ vs.toList, isValue v.toList = true)
    (hne : ∃ v ∈ vs.toList, v ≠ "") :
    ValuesIn ([','].intercalate (vs.toList.map String.toList)) vs.toList := by
  refine ⟨vs.toList.map String.toList, ?_, rfl, ?_, hne⟩
  · obtain ⟨v, hv, -⟩ := hne
    exact List.ne_nil_of_mem (List.mem_map_of_mem hv)
  · rw [List.forall₂_map_left_iff, List.forall₂_same]
    exact fun v hv => .own (isValue_eq_true_iff.mp (hvalid v hv))

theorem written_text_set {word : List Char} {ask : String → TextSet → Requirement}
    (hword : SetWord word ask) (h : IsWellFormedSet k vs) :
    Written ((k.toList ++ ' ' :: word ++ [' ']) ++
      ('(' :: [','].intercalate (vs.toList.map String.toList) ++ [')'])) (ask k vs) := by
  obtain ⟨hk, hvalid, hne⟩ := h
  have hblank : AllBlank [' '] := by
    intro c hc
    rw [List.mem_singleton.mp hc]
    decide
  have hkey : KeyBefore word (k.toList ++ ' ' :: word ++ [' ']) k :=
    ⟨k.toList, ' ', [' '], rfl, .own (isKey_eq_true_iff.mp hk), by decide, hblank⟩
  exact .set hword hkey (valuesIn_text hvalid hne) fun _ => .rfl

/-- A well-formed requirement writes itself. -/
theorem written_text (h : r.IsWellFormed) : Written r.text.toList r := by
  cases r with
  | oneOf k vs =>
    have htext := written_text_set .oneOf h
    simpa [text] using htext
  | noneOf k vs =>
    have htext := written_text_set .noneOf h
    simpa [text] using htext
  | equal k v =>
    have htext : Written (k.toList ++ '=' :: v.toList) (.equal k v) :=
      .equal (.own (isKey_eq_true_iff.mp h.1)) (.own (isValue_eq_true_iff.mp h.2))
    simpa [text] using htext
  | notEqual k v =>
    have htext : Written (k.toList ++ '!' :: '=' :: v.toList) (.notEqual k v) :=
      .notEqual (.own (isKey_eq_true_iff.mp h.1)) (.own (isValue_eq_true_iff.mp h.2))
    simpa [text] using htext
  | present k => exact .present (isKey_eq_true_iff.mp h)
  | absent k =>
    have htext : Written ('!' :: k.toList) (.absent k) :=
      .absent (.own (isKey_eq_true_iff.mp h))
    simpa [text] using htext

end Requirement

namespace Selector

/-! ### Selectors -/

/-- A selector that reads back. -/
def IsWellFormed (s : Selector) : Prop :=
  ∀ r ∈ s.requirements, r.IsWellFormed

instance : DecidablePred IsWellFormed := fun s =>
  inferInstanceAs (Decidable (∀ r ∈ s.requirements, r.IsWellFormed))

variable {cs : List Char} {s : Selector}

/-- The grammar derives well-formed selectors only. -/
theorem isWellFormed_of_written (h : Written cs s) : s.IsWellFormed := by
  cases h with
  | blank _ =>
    intro r hr
    cases hr
  | @list parts rs _ hparts =>
    have hrs : ∀ r ∈ rs, r.IsWellFormed :=
      ((List.forall₂_and_left rs parts).mp
        (hparts.flip.imp fun _ _ h => ⟨Requirement.isWellFormed_of_written h.choose_spec.2, h⟩)).1
    exact hrs

/-- The grammar derives a well-formed selector from its own text. -/
theorem written_text (h : s.IsWellFormed) : Written s.text.toList s := by
  obtain ⟨rs⟩ := s
  have htext : (text ⟨rs⟩).toList = [','].intercalate (rs.map fun r => r.text.toList) := by
    rw [text, String.toList_intercalate, List.map_map]
    rfl
  rw [htext]
  cases rs with
  | nil => exact .blank Text.allBlank_nil
  | cons r rs =>
    refine .list (by simp) ?_
    rw [List.forall₂_map_left_iff, List.forall₂_same]
    exact fun r hr => (Requirement.written_text (h r hr)).within

/-- **Reading what was written.** Exactly the well-formed selectors read back from their text as
what they are, and every selector that is read from any text is one of them. -/
theorem text_reads_back_just_if_wellFormed :
    (∀ s : Selector, parse s.text = .ok s ↔ s.IsWellFormed) ∧
    ∀ (t : String) (s : Selector), parse t = .ok s → s.IsWellFormed ∧ parse s.text = .ok s := by
  have hread : ∀ {t s}, parse t = .ok s → s.IsWellFormed := fun h =>
    isWellFormed_of_written (written_of_parseChars (parse_eq_ok_iff_chars.mp h))
  have hback : ∀ {s}, s.IsWellFormed → parse s.text = .ok s := fun h =>
    parse_eq_ok_iff_chars.mpr (parseChars_of_written (written_text h))
  exact ⟨fun s => ⟨hread, hback⟩, fun t s h => ⟨hread h, hback (hread h)⟩⟩

/-- A set with an empty value, and a key that is named like an operator. -/
theorem text_of_empty_value_reads_back :
    let s : Selector := ⟨[.oneOf "in" (TextSet.ofList ["b", "", "a"]), .absent "notin"]⟩
    parse " in  in( b,,a,b ) , ! notin" = .ok s ∧ s.text = "in in (,a,b),!notin" ∧
      s.IsWellFormed ∧ parse s.text = .ok s := by
  intro s
  have hparse : parse " in  in( b,,a,b ) , ! notin" = .ok s := by decide +kernel
  exact ⟨hparse, by decide +kernel, text_reads_back_just_if_wellFormed.2 _ s hparse⟩

/-- A set of the empty value alone is written but not read. -/
example :
    let s : Selector := ⟨[.oneOf "in" (TextSet.ofList [""])]⟩
    s.text = "in in ()" ∧ ¬ s.IsWellFormed := by
  decide +kernel

end Selector
end ClusterKit
