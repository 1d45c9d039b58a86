/-
# Plurals by table and by ending

A name that the table binds has the plural that it has been bound to last. Any other name has one
by its ending, and for that the table has no part in it: of the rules in their order the first
counts of which the name has the ending. Endings are those of the name as it is spelled, so that
one in capitals has none of its own, and are counted in characters, of whatever script. In the
plural itself no ASCII letter is a capital.

Key definitions: `Pluralizer.SuffixRule`, `Pluralizer.endingRules`, `Pluralizer.ruleFor?`,
`Pluralizer.IsRegular`, `Pluralizer.withExceptions`.
Key theorems: `Pluralizer.exists_rule`, `Pluralizer.isRegular_iff`,
`Pluralizer.plurals_follow_table_then_ending`.
-/
import Mathlib.Data.List.Find
import Mathlib.Data.List.Infix
import ClusterKit.Naming.Plural
import ClusterKit.Proofs.Table

namespace ClusterKit

/-! ### Lower case -/

theorem isUpper_iff_toNat {c : Char} : c.isUpper = true ↔ 65 ≤ c.toNat ∧ c.toNat ≤ 90 := by
  delta Char.isUpper
  simp only [decide_eq_true_eq, ge_iff_le, UInt32.le_iff_toNat_le, Char.reduceVal,
    UInt32.reduceToNat, Char.toNat_val]

theorem isLower_iff_toNat {c : Char} : c.isLower = true ↔ 97 ≤ c.toNat ∧ c.toNat ≤ 122 := by
  delta Char.isLower
  simp only [Bool.and_eq_true, decide_eq_true_eq, ge_iff_le, UInt32.le_iff_toNat_le,
    Char.reduceVal, UInt32.reduceToNat, Char.toNat_val]

/-- No letter is a capital in lower case. -/
theorem not_isUpper_toLower (c : Char) : c.toLower.isUpper = false := by
  unfold Char.toLower
  split
  · rename_i h
    obtain ⟨hge, hle⟩ := isUpper_iff_toNat.mp (decide_eq_true h)
    have hshift : ('a'.val - 'A'.val).toNat = 32 := rfl
    have hval : (c.val + ('a'.val - 'A'.val)).toNat = c.toNat + 32 := by
      rw [UInt32.toNat_add, hshift, Char.toNat_val]
      exact Nat.mod_eq_of_lt (by omega)
    rw [Bool.eq_false_iff, ne_eq, isUpper_iff_toNat, ← Char.toNat_val, hval]
    omega
  · rename_i h
    exact decide_eq_false h

theorem not_isUpper_of_mem_lowerAscii {s : String} {c : Char} (h : c ∈ (lowerAscii s).toList) :
    c.isUpper = false := by
  rw [lowerAscii, String.toList_ofList] at h
  obtain ⟨d, -, rfl⟩ := List.mem_map.mp h
  exact not_isUpper_toLower d

namespace Pluralizer

/-! ### Rules -/

/-- A rule for names that end in what is kept and what is dropped: in the plural something is
added in place of the latter. -/
structure SuffixRule where
  kept : List Char
  dropped : List Char
  added : List Char
  deriving DecidableEq

namespace SuffixRule

/-- What names have to end in. -/
def ending (r : SuffixRule) : List Char :=
  r.kept ++ r.dropped

/-- The rule makes one text of another. -/
def Replaces (r : SuffixRule) (cs ds : List Char) : Prop :=
  ∃ stem, cs = stem ++ r.ending ∧ ds = stem ++ r.kept ++ r.added

end SuffixRule

/-- The lower case letters that are no vowels. -/
def consonants : List Char :=
  ['b', 'c', 'd', 'f', 'g', 'h', 'j', 'k', 'l', 'm', 'n', 'p', 'q', 'r', 's', 't', 'v', 'w', 'x',
    'y', 'z']

/-- The rules for names with an ending of their own, in their order. -/
def endingRules : List SuffixRule :=
  [['s'], ['x'], ['z'], ['c', 'h'], ['s', 'h']].map (⟨·, [], ['e', 's']⟩) ++
    consonants.map (⟨[·], ['y'], ['i', 'e', 's']⟩) ++
    [⟨[], ['f', 'e'], ['v', 'e', 's']⟩, ⟨[], ['f'], ['v', 'e', 's']⟩]

/-- The rule for all other names. -/
def otherRule : SuffixRule :=
  ⟨[], [], ['s']⟩

/-- The first rule of which the text has the ending. -/
def ruleFor? (cs : List Char) : Option SuffixRule :=
  (endingRules ++ [otherRule]).find? fun r => r.ending <:+ cs

theorem mem_consonants_iff (c : Char) : c ∈ consonants ↔ isConsonant c = true := by
  constructor
  · have hall : consonants.all isConsonant = true := by decide
    exact List.all_eq_true.mp hall c
  · intro h
    have hletters : ∀ n < 123, 97 ≤ n → isConsonant (Char.ofNat n) = true →
        Char.ofNat n ∈ consonants := by
      decide +kernel
    have hlower : 97 ≤ c.toNat ∧ c.toNat ≤ 122 := by
      rw [isConsonant, Bool.and_eq_true] at h
      exact isLower_iff_toNat.mp h.1
    have hmem := hletters c.toNat (Nat.lt_succ_of_le hlower.2) hlower.1
    rw [Char.ofNat_toNat] at hmem
    exact hmem h

/-! ### Endings -/

theorem mem_endingRules_iff {r : SuffixRule} : r ∈ endingRules ↔
    (∃ e ∈ [['s'], ['x'], ['z'], ['c', 'h'], ['s', 'h']], r = ⟨e, [], ['e', 's']⟩) ∨
      (∃ c ∈ consonants, r = ⟨[c], ['y'], ['i', 'e', 's']⟩) ∨
      r = ⟨[], ['f', 'e'], ['v', 'e', 's']⟩ ∨ r = ⟨[], ['f'], ['v', 'e', 's']⟩ := by
  simp only [endingRules, List.mem_append, List.mem_map, List.mem_cons, List.not_mem_nil, or_false,
    or_assoc, eq_comm]

/-- Behind any stem an ending is replaced by its rule. -/
theorem pluralReversed_of_mem {r : SuffixRule} (hr : r ∈ endingRules) (stem : List Char) :
    (pluralReversed (stem ++ r.ending).reverse).reverse = stem ++ r.kept ++ r.added := by
  rcases mem_endingRules_iff.mp hr with ⟨e, he, rfl⟩ | ⟨c, hc, rfl⟩ | rfl | rfl
  · simp only [List.mem_cons, List.not_mem_nil, or_false] at he
    rcases he with rfl | rfl | rfl | rfl | rfl <;> simp [SuffixRule.ending, pluralReversed]
  · simp [SuffixRule.ending, pluralReversed, (mem_consonants_iff c).mp hc]
  · simp [SuffixRule.ending, pluralReversed]
  · simp [SuffixRule.ending, pluralReversed]

/-- What has no ending of its own, given with the last character first, gets one more letter. -/
theorem pluralReversed_of_forall {cs : List Char}
    (h : ∀ r ∈ endingRules, ¬ r.ending.reverse <+: cs) : pluralReversed cs = 's' :: cs := by
  unfold pluralReversed
  split
  -- s, x, z, ch and sh
  · exact absurd (List.prefix_append ['s'] _) (h ⟨['s'], [], ['e', 's']⟩ (by decide))
  · exact absurd (List.prefix_append ['x'] _) (h ⟨['x'], [], ['e', 's']⟩ (by decide))
  · exact absurd (List.prefix_append ['z'] _) (h ⟨['z'], [], ['e', 's']⟩ (by decide))
  · exact absurd (List.prefix_append ['h', 'c'] _) (h ⟨['c', 'h'], [], ['e', 's']⟩ (by decide))
  · exact absurd (List.prefix_append ['h', 's'] _) (h ⟨['s', 'h'], [], ['e', 's']⟩ (by decide))
  -- y has an ending of its own behind a consonant only
  · rename_i b cs
    split
    · rename_i hb
      exact absurd (List.prefix_append ['y', b] _) (h ⟨[b], ['y'], ['i', 'e', 's']⟩
        (mem_endingRules_iff.mpr (.inr (.inl ⟨b, (mem_consonants_iff b).mpr hb, rfl⟩))))
    · rfl
  -- fe and f
  · exact absurd (List.prefix_append ['e', 'f'] _) (h ⟨[], ['f', 'e'], ['v', 'e', 's']⟩ (by decide))
  · exact absurd (List.prefix_append ['f'] _) (h ⟨[], ['f'], ['v', 'e', 's']⟩ (by decide))
  · rfl

/-- A plural by its ending is made by the first rule for the name. -/
theorem exists_rule (cs : List Char) :
    ∃ r, ruleFor? cs = some r ∧ r.Replaces cs (pluralReversed cs.reverse).reverse := by
  unfold ruleFor?
  rw [List.find?_append]
  cases hfirst : endingRules.find? fun r => r.ending <:+ cs with
  | some r =>
    obtain ⟨stem, hcs⟩ : r.ending <:+ cs := by
      simpa using List.find?_some hfirst
    refine ⟨r, rfl, stem, hcs.symm, ?_⟩
    rw [← hcs]
    exact pluralReversed_of_mem (List.mem_of_find?_eq_some hfirst) stem
  | none =>
    have hnone : ∀ r ∈ endingRules, ¬ r.ending.reverse <+: cs.reverse := by
      simpa [List.find?_eq_none] using hfirst
    have hplural : (pluralReversed cs.reverse).reverse = cs ++ ['s'] := by
      rw [pluralReversed_of_forall hnone, List.reverse_cons, List.reverse_reverse]
    refine ⟨otherRule, ?_, cs, (List.append_nil cs).symm, ?_⟩
    · simp [otherRule, SuffixRule.ending]
    · simp [hplural, otherRule]

/-! ### Names outside of the table -/

/-- The plural of a name by its ending: one that is too short for any stays as it is, and any
other has the first rule for it applied. -/
inductive IsRegular (name : String) : String → Prop
  | short (h : name.toList.length < 2) : IsRegular name (lowerAscii name)
  | long (h : 2 ≤ name.toList.length) {r : SuffixRule} {ds : List Char}
      (hr : ruleFor? name.toList = some r) (hds : r.Replaces name.toList ds) :
      IsRegular name (lowerAscii (String.ofList ds))

theorem SuffixRule.Replaces.unique {r : SuffixRule} {cs ds ds' : List Char} (h : r.Replaces cs ds)
    (h' : r.Replaces cs ds') : ds = ds' := by
  obtain ⟨stem, rfl, rfl⟩ := h
  obtain ⟨stem', hcs, rfl⟩ := h'
  rw [List.append_cancel_right hcs]

theorem isRegular_regular (name : String) : IsRegular name (regular name) := by
  unfold regular
  by_cases h : name.toList.length < 2
  · simp only [h, if_true]
    exact .short h
  · simp only [h, if_false]
    obtain ⟨r, hr, hds⟩ := exists_rule name.toList
    exact .long (Nat.le_of_not_lt h) hr hds

/-- A name has one plural by its ending. -/
theorem isRegular_iff {name s : String} : IsRegular name s ↔ regular name = s := by
  constructor
  · intro h
    have hregular := isRegular_regular name
    generalize regular name = s' at hregular
    cases h with
    | short h =>
      cases hregular with
      | short _ => rfl
      | long h' => exact absurd h (Nat.not_lt_of_le h')
    | long h hr hds =>
      cases hregular with
      | short h' => exact absurd h' (Nat.not_lt_of_le h)
      | long _ hr' hds' =>
        obtain rfl := Option.some.inj (hr.symm.trans hr')
        rw [hds.unique hds']
  · rintro rfl
    exact isRegular_regular name

/-! ### Names and tables -/

/-- The pluralizer with more irregular plurals, each in place of an earlier one for its name. -/
def withExceptions (p : Pluralizer) (qs : List (String × String)) : Pluralizer :=
  qs.foldl (fun p q => p.withException q.1 q.2) p

theorem ofExceptions_withExceptions (ps qs : List (String × String)) :
    (ofExceptions ps).withExceptions qs = ofExceptions (ps ++ qs) := by
  induction qs using List.reverseRecOn with
  | nil => rw [List.append_nil]; rfl
  | append_singleton qs q ih =>
    have hlast : (ofExceptions ps).withExceptions (qs ++ [q]) =
        ((ofExceptions ps).withExceptions qs).withException q.1 q.2 := List.foldl_concat ..
    rw [hlast, ih, ← List.append_assoc, ofExceptions, ofExceptions, Table.ofList_append_singleton]
    rfl

theorem not_isUpper_of_mem_plural {p : Pluralizer} {name : String} {c : Char}
    (h : c ∈ (p.plural name).toList) : c.isUpper = false := by
  unfold plural regular at h
  split at h <;> exact not_isUpper_of_mem_lowerAscii h

theorem plural_of_exception {ps : List (String × String)} {name s : String}
    {before behind : List (String × String)} (h : ps = before ++ (name, s) :: behind)
    (hlast : name ∉ behind.map Prod.fst) : (ofExceptions ps).plural name = lowerAscii s := by
  rw [plural, h, ofExceptions, Table.get?_ofList_last hlast]

theorem plural_of_not_mem {ps : List (String × String)} {name : String}
    (h : name ∉ ps.map Prod.fst) : (ofExceptions ps).plural name = regular name := by
  rw [plural, ofExceptions, Table.get?_ofList_eq_none h]

/-- **Plurals.** Make a pluralizer of any irregular plurals and give it any others one by one. No
plural that it has for a name has an ASCII capital. A name that is among those given has the
last plural given for it, in lower case. Any other name has the one plural that it has by its
ending, whatever has been given. -/
theorem plurals_follow_table_then_ending (ps qs : List (String × String)) (name : String) :
    let p := (ofExceptions ps).withExceptions qs
    (∀ c ∈ (p.plural name).toList, c.isUpper = false) ∧
    (∀ before s behind, ps ++ qs = before ++ (name, s) :: behind →
      name ∉ behind.map Prod.fst → p.plural name = lowerAscii s) ∧
    (name ∉ (ps ++ qs).map Prod.fst → ∀ s, p.plural name = s ↔ IsRegular name s) := by
  intro p
  have hp : p = ofExceptions (ps ++ qs) := ofExceptions_withExceptions ps qs
  rw [hp]
  refine ⟨fun c hc => not_isUpper_of_mem_plural hc, fun before s behind hgiven hlast => ?_,
    fun hname s => ?_⟩
  · exact plural_of_exception hgiven hlast
  · rw [plural_of_not_mem hname, isRegular_iff]

/-- A name that is given two plurals has the second; another one, which is not given any, has
its ending replaced behind a letter that is not ASCII. -/
theorem knives_are_given_a_plural_twice :
    let ps := [("Knife", "Knifes"), ("Leaf", "Leafs")]
    let qs := [("Knife", "KNIVES")]
    let p := (ofExceptions ps).withExceptions qs
    p.plural "Knife" = "knives" ∧ "Éfe" ∉ (ps ++ qs).map Prod.fst ∧ IsRegular "Éfe" "Éves" ∧
      p.plural "Éfe" = "Éves" := by
  intro ps qs p
  obtain ⟨-, hgiven, -⟩ := plurals_follow_table_then_ending ps qs "Knife"
  obtain ⟨-, -, hother⟩ := plurals_follow_table_then_ending ps qs "Éfe"
  have hname : "Éfe" ∉ (ps ++ qs).map Prod.fst := by decide
  have hregular : IsRegular "Éfe" "Éves" :=
    isRegular_iff.mpr (by decide +kernel)
  refine ⟨?_, hname, hregular, (hother hname _).mpr hregular⟩
  rw [hgiven [("Knife", "Knifes"), ("Leaf", "Leafs")] "KNIVES" [] rfl List.not_mem_nil]
  decide +kernel

end Pluralizer
end ClusterKit
