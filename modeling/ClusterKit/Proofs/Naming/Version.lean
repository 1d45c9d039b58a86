/-
# Written group versions

A group version is read back from its written form, and a text that reads as one is its
written form, as long as the first slash of the text is the one that the form puts between group
and version: no group has a slash, and a version without a group has none either,
since nothing is written in front of it. All that cannot be read are texts that
lack a part which they should have.

Key definitions: `GroupVersion.IsWritable`, `GroupVersion.LacksPart`.
Key theorems: `GroupVersion.parse_of_slash`, `GroupVersion.parse_of_not_mem`,
`GroupVersion.reads_just_what_it_writes`.
-/
import Mathlib.Data.List.TakeWhile
import ClusterKit.Naming.Version

namespace ClusterKit
namespace GroupVersion

/-- The written form can be told apart again: a version is there, and no slash stands in front
of the one behind the group. -/
structure IsWritable (gv : GroupVersion) : Prop where
  group : '/' ∉ gv.group.toList
  version : gv.version ≠ ""
  core : gv.group = "" → '/' ∉ gv.version.toList

/-- The text is empty, begins with a slash or ends with its first one. -/
inductive LacksPart : String → Prop
  | all : LacksPart ""
  | group {s : String} {q : List Char} (h : s.toList = '/' :: q) : LacksPart s
  | version {s : String} {p : List Char} (hp : '/' ∉ p) (h : s.toList = p ++ ['/']) : LacksPart s

/-! ### Reading -/

section

variable {s : String} {p q : List Char}

/-- A text without a slash is a version of the core group. -/
theorem parse_of_not_mem (h : '/' ∉ s.toList) :
    parse s = if s = "" then none else some ⟨"", s⟩ := by
  have hdrop : s.toList.dropWhile (· != '/') = [] :=
    List.dropWhile_eq_nil_iff.mpr fun c hc => bne_iff_ne.mpr fun heq => h (heq ▸ hc)
  unfold parse
  simp only [hdrop, String.isEmpty_iff]

/-- Any other text is cut at its first slash. -/
theorem parse_of_slash (hp : '/' ∉ p) (h : s.toList = p ++ '/' :: q) :
    parse s = if p = [] ∨ q = [] then none else some ⟨String.ofList p, String.ofList q⟩ := by
  have hbefore : ∀ c ∈ p, (c != '/') = true :=
    fun c hc => bne_iff_ne.mpr fun heq => hp (heq ▸ hc)
  have htake : s.toList.takeWhile (· != '/') = p := by
    rw [h, List.takeWhile_append_of_pos hbefore]
    simp
  have hdrop : s.toList.dropWhile (· != '/') = '/' :: q := by
    rw [h, List.dropWhile_append_of_pos hbefore]
    simp
  unfold parse
  simp only [htake, hdrop, Bool.or_eq_true, List.isEmpty_iff]

/-- A text has no slash, or something in front of its first one and something behind it. -/
theorem slash_cases (s : String) :
    '/' ∉ s.toList ∨ ∃ p q, '/' ∉ p ∧ s.toList = p ++ '/' :: q := by
  by_cases h : '/' ∈ s.toList
  · obtain ⟨p, q, hs, hp⟩ := List.eq_append_cons_of_mem h
    exact .inr ⟨p, q, hp, hs⟩
  · exact .inl h

end

/-! ### Writing -/

theorem toList_text (gv : GroupVersion) :
    gv.text.toList =
      if gv.group = "" then gv.version.toList else gv.group.toList ++ '/' :: gv.version.toList := by
  unfold text versionText
  simp only [String.isEmpty_iff]
  split
  · rfl
  · simp

/-- What can be told apart is read back. -/
theorem parse_text {gv : GroupVersion} (h : gv.IsWritable) : parse gv.text = some gv := by
  have htext := gv.toList_text
  by_cases hgroup : gv.group = ""
  · rw [if_pos hgroup] at htext
    rw [parse_of_not_mem (htext ▸ h.core hgroup), String.toList_inj.mp htext, if_neg h.version,
      ← hgroup]
  · rw [if_neg hgroup] at htext
    have hparts : ¬ (gv.group.toList = [] ∨ gv.version.toList = []) := by
      simpa using ⟨hgroup, h.version⟩
    rw [parse_of_slash h.group htext, if_neg hparts, String.ofList_toList, String.ofList_toList]

/-- What is read is written as the text, and can be told apart. -/
theorem text_of_parse {s : String} {gv : GroupVersion} (h : parse s = some gv) :
    gv.IsWritable ∧ gv.text = s := by
  rcases slash_cases s with hs | ⟨p, q, hp, hs⟩
  · rw [parse_of_not_mem hs] at h
    split at h
    · cases h
    · rename_i hne
      cases h
      exact ⟨⟨List.not_mem_nil, hne, fun _ => hs⟩, rfl⟩
  · rw [parse_of_slash hp hs] at h
    split at h
    · cases h
    · rename_i hne
      cases h
      obtain ⟨hp', hq'⟩ := not_or.mp hne
      have hgroup : String.ofList p ≠ "" := by simpa using hp'
      refine ⟨⟨?_, by simpa using hq', fun hnil => absurd hnil hgroup⟩, ?_⟩
      · rwa [String.toList_ofList]
      · rw [← String.toList_inj, toList_text, if_neg hgroup, String.toList_ofList,
          String.toList_ofList, hs]

/-- A text reads as nothing just if a part of it is not there. -/
theorem parse_eq_none_iff {s : String} : parse s = none ↔ LacksPart s := by
  constructor
  · intro h
    rcases slash_cases s with hs | ⟨p, q, hp, hs⟩
    · rw [parse_of_not_mem hs] at h
      split at h
      · rename_i hempty
        exact hempty ▸ .all
      · cases h
    · rw [parse_of_slash hp hs] at h
      split at h
      · rename_i hlacks
        rcases hlacks with rfl | rfl
        · exact .group hs
        · exact .version hp hs
      · cases h
  · intro h
    cases h with
    | all => rfl
    | group hs => exact parse_of_slash (p := []) List.not_mem_nil hs
    | version hp hs => rw [parse_of_slash hp hs, if_pos (.inr rfl)]

/-- **Written group versions.** A text reads as a group version just if it is the written form of
it and the group version is one that can be told apart in this form: its version is not empty,
its group has no slash, and without a group its version has none. A text reads as nothing just if
it is empty, begins with a slash or has nothing behind its first slash. -/
theorem reads_just_what_it_writes (s : String) :
    (∀ gv, parse s = some gv ↔ gv.IsWritable ∧ gv.text = s) ∧ (parse s = none ↔ LacksPart s) :=
  ⟨fun _ => ⟨text_of_parse, fun ⟨hgv, hs⟩ => hs ▸ parse_text hgv⟩, parse_eq_none_iff⟩

/-- Behind the first slash more of them may follow. -/
example : parse "a/b/c" = some ⟨"a", "b/c"⟩ := by
  decide +kernel

end GroupVersion
end ClusterKit
