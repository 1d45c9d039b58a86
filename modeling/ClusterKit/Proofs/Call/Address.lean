/-
# Marks in addresses

A question mark begins the query of an address, and a number sign ends the
address. Wherever the first of these marks stands, the path is what comes before
it. Form pairs have no character that a query may not have, and no mark but
question marks.

Key definitions: `Uri.Unmarked`, `Uri.front`, `Uri.behind?`, `Uri.joined`.
Key theorems: `Uri.parse?_slash_eq_some_iff`, `Uri.parse?_joined_eq_some_iff`,
`Form.isQueryChar_of_mem_pairs`.
-/
import ClusterKit.Call.Form
import ClusterKit.Call.Uri
import ClusterKit.Proofs.Text.Blank
import Mathlib.Data.List.TakeWhile

namespace ClusterKit
namespace Uri

variable {cs ds p : List Char} {c : Char} {q? : Option (List Char)} {u : Uri}

/-! ### Paths and queries -/

/-- Whether a path goes on with `c`. -/
def goesOn (c : Char) : Bool :=
  c ≠ '?' && c ≠ '#'

/-- There is no mark among the characters. -/
def Unmarked (cs : List Char) : Prop :=
  ∀ c ∈ cs, goesOn c = true

instance (cs : List Char) : Decidable (Unmarked cs) :=
  decidable_of_iff (cs.all goesOn = true) List.all_eq_true

/-- What comes before the first mark. -/
def front (cs : List Char) : List Char :=
  cs.takeWhile goesOn

/-- What comes behind the first question mark, if there is one before the first number sign. -/
def behind? (cs : List Char) : Option (List Char) :=
  match (cs.takeWhile (· ≠ '#')).dropWhile (· ≠ '?') with
  | [] => none
  | _ :: query => some query

/-- A path with its query, if it has one. -/
def joined (p : List Char) : Option (List Char) → List Char
  | none => p
  | some query => p ++ '?' :: query

theorem unmarked_append : Unmarked (cs ++ ds) ↔ Unmarked cs ∧ Unmarked ds :=
  List.forall_mem_append

theorem unmarked_slash : Unmarked ('/' :: cs) ↔ Unmarked cs := by
  rw [Unmarked, List.forall_mem_cons]
  exact ⟨And.right, fun h => ⟨by decide, h⟩⟩

theorem front_eq_self_iff : front cs = cs ↔ Unmarked cs :=
  List.takeWhile_eq_self_iff

theorem front_append (h : Unmarked cs) : front (cs ++ ds) = cs ++ front ds :=
  List.takeWhile_append_of_pos h

theorem front_append_of_marked (h : ¬ Unmarked cs) : front (cs ++ ds) = front cs := by
  have hlength : (cs.takeWhile goesOn).length ≠ cs.length := by
    intro hlength
    exact h (front_eq_self_iff.mp ((List.takeWhile_prefix goesOn).eq_of_length hlength))
  rw [front, List.takeWhile_append, if_neg hlength, front]

theorem front_slash : front ('/' :: cs) = '/' :: front cs :=
  List.takeWhile_cons_of_pos (by decide)

theorem front_joined : front (joined p q?) = front p := by
  cases q? with
  | none => rfl
  | some query =>
    by_cases hp : Unmarked p
    · have hmark : front ('?' :: query) = [] := rfl
      rw [joined, front_append hp, hmark, List.append_nil, front_eq_self_iff.mpr hp]
    · exact front_append_of_marked hp

theorem ne_hash_of_goesOn (h : goesOn c = true) : c ≠ '#' := by
  rintro rfl
  cases h

theorem ne_question_of_goesOn (h : goesOn c = true) : c ≠ '?' := by
  rintro rfl
  cases h

/-- Behind a path without marks its query is found. -/
theorem behind?_joined (hp : Unmarked p) (hq : ∀ query ∈ q?, '#' ∉ query) :
    behind? (joined p q?) = q? := by
  have hhash : ∀ c ∈ p, decide (c ≠ '#') = true := fun c hc =>
    decide_eq_true (ne_hash_of_goesOn (hp c hc))
  have hquestion : ∀ c ∈ p, decide (c ≠ '?') = true := fun c hc =>
    decide_eq_true (ne_question_of_goesOn (hp c hc))
  cases q? with
  | none =>
    rw [behind?, joined, List.takeWhile_eq_self_iff.mpr hhash,
      List.dropWhile_eq_nil_iff.mpr hquestion]
  | some query =>
    have hquery : ∀ c ∈ '?' :: query, decide (c ≠ '#') = true := by
      intro c hc
      rcases List.mem_cons.mp hc with rfl | hc
      · decide
      · exact decide_eq_true fun heq => hq query rfl (heq ▸ hc)
    have hwhole : (p ++ '?' :: query).takeWhile (· ≠ '#') = p ++ '?' :: query := by
      rw [List.takeWhile_append_of_pos hhash, List.takeWhile_eq_self_iff.mpr hquery]
    rw [behind?, joined, hwhole, List.dropWhile_append_of_pos hquestion]
    rfl

/-! ### Reading addresses -/

theorem front_eq (cs : List Char) :
    (cs.takeWhile (· ≠ '#')).takeWhile (· ≠ '?') = front cs := by
  rw [List.takeWhile_takeWhile, front]
  congr 1
  funext c
  simp [goesOn]

/-- A path and perhaps a query are read as what stands up to the first mark and behind it. -/
theorem withPath?_eq_some_iff {scheme : Option (List Char)} {authority : List Char} :
    withPath? scheme authority cs = some u ↔
      (front cs).all isPathChar = true ∧ (∀ query ∈ behind? cs, query.all isQueryChar = true) ∧
        u = ⟨scheme, authority, if (front cs).isEmpty then ['/'] else front cs, behind? cs⟩ := by
  unfold withPath? behind?
  dsimp only
  rw [front_eq]
  generalize (if (front cs).isEmpty then ['/'] else front cs) = shown
  cases (front cs).all isPathChar with
  | false => simp
  | true =>
    cases (cs.takeWhile (· ≠ '#')).dropWhile (· ≠ '?') with
    | nil =>
      constructor
      · intro h
        exact ⟨rfl, nofun, (Option.some.inj h).symm⟩
      · rintro ⟨-, -, rfl⟩
        rfl
    | cons c query =>
      by_cases hquery : query.all isQueryChar = true
      · constructor
        · intro h
          refine ⟨rfl, ?_, ?_⟩
          · rintro _ ⟨⟩
            exact hquery
          · simpa [hquery, eq_comm] using h
        · rintro ⟨-, -, rfl⟩
          simp [hquery]
      · constructor
        · intro h
          simp [hquery] at h
        · rintro ⟨-, hall, -⟩
          exact absurd (hall query rfl) hquery

/-- An address that begins with a slash is a path up to the first mark, and perhaps a query. -/
theorem parse?_slash_eq_some_iff :
    parse? ('/' :: cs) = some u ↔
      Utf8.size ('/' :: cs) ≤ maxSize ∧ (front ('/' :: cs)).all isPathChar = true ∧
        (∀ query ∈ behind? ('/' :: cs), query.all isQueryChar = true) ∧
          u = ⟨none, [], front ('/' :: cs), behind? ('/' :: cs)⟩ := by
  have hstar : '/' :: cs ≠ ['*'] := by simp
  have hread : withPath? none [] ('/' :: cs) = some u ↔
      (front ('/' :: cs)).all isPathChar = true ∧
        (∀ query ∈ behind? ('/' :: cs), query.all isQueryChar = true) ∧
          u = ⟨none, [], front ('/' :: cs), behind? ('/' :: cs)⟩ := by
    rw [withPath?_eq_some_iff, if_neg (by simp [front_slash])]
  rw [parse?, if_neg hstar, List.head?_cons, if_pos rfl, ← hread]
  by_cases hsize : maxSize < Utf8.size ('/' :: cs)
  · rw [if_pos hsize]
    constructor
    · exact nofun
    · rintro ⟨hle, -⟩
      omega
  · rw [if_neg hsize]
    exact ⟨fun h => ⟨by omega, h⟩, fun h => h.2⟩

/-- A path without marks is read with its query just as they were joined. -/
theorem parse?_joined_eq_some_iff (hp : Unmarked ('/' :: p))
    (hq : ∀ query ∈ q?, ∀ c ∈ query, isQueryChar c = true) :
    parse? (joined ('/' :: p) q?) = some u ↔
      Utf8.size (joined ('/' :: p) q?) ≤ maxSize ∧ ('/' :: p).all isPathChar = true ∧
        u = ⟨none, [], '/' :: p, q?⟩ := by
  obtain ⟨cs, hcs⟩ : ∃ cs, joined ('/' :: p) q? = '/' :: cs := by
    cases q? with
    | none => exact ⟨p, rfl⟩
    | some query => exact ⟨p ++ '?' :: query, rfl⟩
  have hhash : ∀ query ∈ q?, '#' ∉ query := by
    intro query hquery hmem
    exact absurd (hq query hquery '#' hmem) (by decide)
  have hquery : ∀ query ∈ q?, query.all isQueryChar = true := fun query h =>
    List.all_eq_true.mpr (hq query h)
  have hfront : front ('/' :: cs) = '/' :: p := by
    rw [← hcs, front_joined, front_eq_self_iff.mpr hp]
  have hbehind : behind? ('/' :: cs) = q? := by rw [← hcs, behind?_joined hp hhash]
  rw [hcs, parse?_slash_eq_some_iff, hfront, hbehind]
  exact ⟨fun ⟨hsize, hpath, _, hu⟩ => ⟨hsize, hpath, hu⟩,
    fun ⟨hsize, hpath, hu⟩ => ⟨hsize, hpath, hquery, hu⟩⟩

end Uri

/-! ### Form pairs -/

namespace Form

open Uri (isQueryChar)

variable {c : Char}

theorem isQueryChar_of_isPlain (h : isPlain c = true) : isQueryChar c = true := by
  simp only [isPlain, Bool.or_eq_true, decide_eq_true_eq] at h
  rcases h with (((h | rfl) | rfl) | rfl) | rfl
  · have hranges := Text.isAlphanum_iff_toNat.mp h
    simp only [isQueryChar, Uri.inRanges, List.any_cons, List.any_nil, Bool.or_eq_true,
      Bool.and_eq_true, decide_eq_true_eq]
    omega
  all_goals decide

/-- What holds of plain characters, of a plus and a percent sign, and of hexadecimal digits holds
of all written characters. -/
theorem of_mem_encode {P : Char → Prop} (hplain : ∀ c, isPlain c = true → P c) (hplus : P '+')
    (hpercent : P '%') (hdigit : ∀ n < 16, P (hexDigit n)) {cs : List Char} (h : c ∈ encode cs) :
    P c := by
  obtain ⟨d, -, h⟩ := List.mem_flatMap.mp h
  unfold encodeChar at h
  split at h
  · rename_i hd
    rw [List.mem_singleton.mp h]
    exact hplain d hd
  · split at h
    · rw [List.mem_singleton.mp h]
      exact hplus
    · obtain ⟨b, -, h⟩ := List.mem_flatMap.mp h
      have hbyte : b.toNat < 256 := b.toNat_lt
      simp only [percent, List.mem_cons, List.not_mem_nil, or_false] at h
      rcases h with rfl | rfl | rfl
      · exact hpercent
      · exact hdigit _ (by omega)
      · exact hdigit _ (by omega)

theorem isQueryChar_of_mem_encode {cs : List Char} (h : c ∈ encode cs) : isQueryChar c = true :=
  of_mem_encode (fun _ => isQueryChar_of_isPlain) (by decide) (by decide) (by decide) h

/-- A query may have all characters of form pairs. -/
theorem isQueryChar_of_mem_pairs {ps : List (String × String)} (h : c ∈ pairs ps) :
    isQueryChar c = true := by
  obtain ⟨p, -, h⟩ := List.mem_flatMap.mp h
  rw [pair, List.cons_append, List.mem_cons, List.mem_append, List.mem_cons] at h
  rcases h with rfl | h | rfl | h
  · decide
  · exact isQueryChar_of_mem_encode h
  · decide
  · exact isQueryChar_of_mem_encode h

end Form
end ClusterKit
