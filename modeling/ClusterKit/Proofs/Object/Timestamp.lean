/-
# Points in time survive writing

What is written of a point in time is read as the same point in time. Each part of the
text is read up to where it ends, whatever is behind it, and the time zone that is written
shifts nothing.

Key theorems: `Timestamp.digits?_digits`, `Timestamp.parse?_text`.
-/
import Mathlib.Tactic.Common
import ClusterKit.Object.Timestamp
import ClusterKit.Proofs.Text.Blank

namespace ClusterKit
namespace Timestamp

open Text (trimStart trimStart_cons isBlank_of_isDigit)

variable {rest : List Char}

/-! ### Digits -/

@[simp] theorem length_digits (width n : Nat) : (digits width n).length = width := by
  induction width generalizing n with
  | zero => rfl
  | succ width ih => simp [digits, ih]

theorem isDigit_of_mem_digits {width n : Nat} : ∀ c ∈ digits width n, c.isDigit = true := by
  have hchar : ∀ k < 10, (Nat.digitChar k).isDigit = true := by decide
  induction width generalizing n with
  | zero => exact List.forall_mem_nil _
  | succ width ih =>
    refine List.forall_mem_append.mpr ⟨ih, List.forall_mem_singleton.mpr ?_⟩
    exact hchar _ (Nat.mod_lt n (by decide))

theorem ofDigitChars_digits {width n : Nat} (h : n < 10 ^ width) :
    Nat.ofDigitChars 10 (digits width n) 0 = n := by
  have hchar : ∀ k < 10, (Nat.digitChar k).toNat - '0'.toNat = k := by decide
  induction width generalizing n with
  | zero =>
    rw [Nat.pow_zero, Nat.lt_one_iff] at h
    rw [h]
    rfl
  | succ width ih =>
    have hrest : n / 10 < 10 ^ width := Nat.div_lt_of_lt_mul (by rwa [← Nat.pow_succ'])
    rw [digits, Nat.ofDigitChars_append, ih hrest, Nat.ofDigitChars_cons, Nat.ofDigitChars_nil,
      hchar _ (Nat.mod_lt n (by decide)), Nat.div_add_mod]

/-- The run of digits at the start, of which at most `max` are looked at. -/
theorem takeWhile_digits {width max n : Nat} (hle : width ≤ max)
    (hend : width = max ∨ ∀ c ∈ rest.head?, c.isDigit = false) :
    ((digits width n ++ rest).take max).takeWhile (·.isDigit) = digits width n := by
  have hrest : (rest.take (max - width)).takeWhile (·.isDigit) = [] := by
    rcases hend with rfl | hend
    · simp
    · cases rest with
      | nil => simp
      | cons c rest =>
        cases max - width with
        | zero => rfl
        | succ k => simp [hend c rfl]
  rw [List.take_append, length_digits, List.take_of_length_le (by simpa),
    List.takeWhile_append_of_pos isDigit_of_mem_digits, hrest, List.append_nil]

theorem exists_digits {width : Nat} (h : width ≠ 0) (n : Nat) :
    ∃ c ds, digits width n = c :: ds ∧ c.isDigit = true := by
  cases hd : digits width n with
  | nil => exact absurd ((length_digits width n).symm.trans (congrArg List.length hd)) h
  | cons c ds => exact ⟨c, ds, rfl, isDigit_of_mem_digits c (hd ▸ List.mem_cons_self)⟩

theorem isEmpty_digits {width n : Nat} (h : width ≠ 0) : (digits width n).isEmpty = false := by
  obtain ⟨c, ds, hd, -⟩ := exists_digits h n
  rw [hd]
  rfl

/-- Digits are read up to where they end. -/
theorem digits?_digits {width max n : Nat} (h0 : width ≠ 0) (hle : width ≤ max)
    (hn : n < 10 ^ width) (hend : width = max ∨ ∀ c ∈ rest.head?, c.isDigit = false) :
    digits? max (digits width n ++ rest) = some (n, rest) := by
  unfold digits?
  simp only [takeWhile_digits hle hend, isEmpty_digits h0, ofDigitChars_digits hn, length_digits,
    Bool.false_eq_true, if_false]
  rw [List.drop_append_of_le_length (by simp), List.drop_of_length_le (by simp), List.nil_append]

/-- There are no blanks in front of digits. -/
theorem trimStart_digits {width n : Nat} (h : width ≠ 0) :
    trimStart (digits width n ++ rest) = digits width n ++ rest := by
  obtain ⟨c, ds, hd, hc⟩ := exists_digits h n
  rw [hd]
  exact trimStart_cons (isBlank_of_isDigit hc) _

/-! ### Parts -/

theorem number?_digits {n : Nat} (hn : n < 100) :
    number? (digits 2 n ++ rest) = some (n, rest) := by
  unfold number?
  rw [trimStart_digits (by decide)]
  exact digits?_digits (by decide) (by decide) hn (.inl rfl)

theorem behind?_cons {c : Char} (hc : Text.isBlank c = false) :
    behind? c (c :: rest) = some rest := by
  simp [behind?, trimStart_cons hc]

/-- A year of four digits has no sign. -/
theorem year?_digits {n : Nat} (hn : n < 10000) :
    year? (digits 4 n ++ rest) = some ((n : Int), rest) := by
  have hread : digits? 4 (digits 4 n ++ rest) = some (n, rest) :=
    digits?_digits (by decide) (by decide) hn (.inl rfl)
  obtain ⟨c, ds, hd, hc⟩ := exists_digits (show 4 ≠ 0 by decide) n
  unfold year?
  rw [trimStart_digits (by decide)]
  rw [hd, List.cons_append] at hread ⊢
  split
  · rename_i heq
    obtain rfl := (List.cons.inj heq).1
    exact absurd hc (by decide)
  · rename_i heq
    obtain rfl := (List.cons.inj heq).1
    exact absurd hc (by decide)
  · rw [hread]
    rfl

theorem year?_minus (cs : List Char) :
    year? ('-' :: cs) = (digits? cs.length cs).map fun x => (-(x.1 : Int), x.2) := rfl

theorem year?_plus (cs : List Char) :
    year? ('+' :: cs) = (digits? cs.length cs).map fun x => ((x.1 : Int), x.2) := rfl

/-- A year with a sign has as many digits as it needs. -/
theorem digits?_yearWidth {n : Nat} (hn : n < 1000000)
    (hend : ∀ c ∈ rest.head?, c.isDigit = false) :
    digits? (digits (yearWidth n) n ++ rest).length (digits (yearWidth n) n ++ rest) =
      some (n, rest) := by
  have hfits : yearWidth n ≠ 0 ∧ n < 10 ^ yearWidth n := by
    unfold yearWidth
    split_ifs <;> omega
  exact digits?_digits hfits.1 (by simp) hfits.2 (.inr hend)

theorem year?_yearChars {year : Int} (hlo : -262143 ≤ year) (hhi : year ≤ 262142)
    (hend : ∀ c ∈ rest.head?, c.isDigit = false) :
    year? (yearChars year ++ rest) = some (year, rest) := by
  unfold yearChars
  dsimp only
  split
  · rw [year?_digits (by omega), Int.natAbs_of_nonneg (by omega)]
  · have hread := digits?_yearWidth (n := year.natAbs) (by omega) hend
    rw [List.cons_append]
    split
    · rw [year?_minus, hread, Option.map_some, Int.ofNat_natAbs_of_nonpos (by omega), Int.neg_neg]
    · rw [year?_plus, hread, Option.map_some, Int.natAbs_of_nonneg (by omega)]

/-- Zeros at the end of decimals count. -/
theorem ofDigitChars_rightpad {width n : Nat} (hn : n < 10 ^ width) (k : Nat) :
    Nat.ofDigitChars 10 ((digits width n).rightpad (width + k) '0') 0 = n * 10 ^ k := by
  have hzeros : ∀ k m, Nat.ofDigitChars 10 (List.replicate k '0') m = m * 10 ^ k := by
    intro k
    induction k with
    | zero => simp
    | succ k ih =>
      intro m
      rw [List.replicate_succ, Nat.ofDigitChars_cons, ih, Nat.pow_succ']
      show (10 * m + 0) * 10 ^ k = _
      rw [Nat.add_zero, Nat.mul_comm 10 m, Nat.mul_assoc]
  rw [List.rightpad, length_digits, Nat.add_sub_cancel_left, Nat.ofDigitChars_append,
    ofDigitChars_digits hn, hzeros]

theorem decimals?_point (cs : List Char) : decimals? ('.' :: cs) =
    if ((cs.take 9).takeWhile (·.isDigit)).isEmpty then none
    else some (Nat.ofDigitChars 10 (((cs.take 9).takeWhile (·.isDigit)).rightpad 9 '0') 0,
      cs.dropWhile (·.isDigit)) := rfl

/-- Decimals are read up to where they end. -/
theorem decimals?_digits (width k : Nat) {n : Nat} (h0 : width ≠ 0) (hwidth : width + k = 9)
    (hn : n < 10 ^ width) (hend : ∀ c ∈ rest.head?, c.isDigit = false) :
    decimals? ('.' :: (digits width n ++ rest)) = some (n * 10 ^ k, rest) := by
  have hrest : rest.dropWhile (·.isDigit) = rest := by
    cases rest with
    | nil => rfl
    | cons c rest => exact List.dropWhile_cons_of_neg (by simp [hend c rfl])
  rw [decimals?_point, takeWhile_digits (by omega) (.inr hend), isEmpty_digits h0,
    if_neg Bool.false_ne_true, ← hwidth, ofDigitChars_rightpad hn,
    List.dropWhile_append_of_pos isDigit_of_mem_digits, hrest]

theorem decimals?_decimals {nano : Nat} (h : nano < 1000000000) :
    decimals? (decimals nano ++ ['Z']) = some (nano, ['Z']) := by
  have hend : ∀ c ∈ ['Z'].head?, c.isDigit = false := fun c hc => Option.some.inj hc ▸ rfl
  unfold decimals
  split_ifs with h0 h6 h3
  · rw [h0]
    rfl
  · rw [List.cons_append, decimals?_digits 3 6 (by decide) rfl (by omega) hend]
    congr 2
    omega
  · rw [List.cons_append, decimals?_digits 6 3 (by decide) rfl (by omega) hend]
    congr 2
    omega
  · rw [List.cons_append, decimals?_digits 9 0 (by decide) rfl (by omega) hend, Nat.pow_zero,
      Nat.mul_one]

theorem offset?_utc : offset? ['Z'] = some (0, []) := by
  decide

/-! ### The whole -/

/-- Where the time is that of UTC the day stays as it is. -/
theorem ofLocal?_utc (t : Timestamp) :
    ofLocal? t.date t.hour t.minute t.second t.nano 0 = some t := by
  obtain ⟨date, hour, minute, second, nano⟩ := t
  have hhour := hour.isLt
  have hminute := minute.isLt
  have hday : ((60 * hour.val + minute.val - 0 : Int) % 1440).toNat =
      60 * hour.val + minute.val := by omega
  unfold ofLocal?
  dsimp only
  rw [if_neg (by omega), if_neg (by omega), hday]
  simp only [Option.map_some, Option.some.injEq, Timestamp.mk.injEq, true_and, and_true]
  constructor
  · apply Fin.ext
    rw [Fin.val_ofNat]
    omega
  · apply Fin.ext
    rw [Fin.val_ofNat]
    omega

theorem below?_val {n : Nat} (k : Fin n) : below? n k = some k :=
  dif_pos k.isLt

theorem Date.of?_self (d : Date) : Date.of? d.year d.month d.day = some d :=
  dif_pos d.isDay

/-- **Points in time are read back.** -/
theorem parse?_text (t : Timestamp) : parse? t.text = some t := by
  obtain ⟨⟨hlo, hhi⟩, hmonth, hday, hdays⟩ := t.date.isDay
  have hshort : t.date.day < 100 := by
    refine Nat.lt_of_le_of_lt hdays ?_
    unfold daysIn
    split <;> (try split) <;> decide
  have hdash (cs : List Char) : ∀ c ∈ ('-' :: cs).head?, c.isDigit = false :=
    fun c hc => Option.some.inj hc ▸ rfl
  have hhyphen (cs : List Char) : behind? '-' ('-' :: cs) = some cs := behind?_cons (by decide)
  have hcolon (cs : List Char) : behind? ':' (':' :: cs) = some cs := behind?_cons (by decide)
  have hletter (cs : List Char) : behindDay? ('T' :: cs) = some cs := rfl
  unfold parse? text parseChars? chars
  rw [String.toList_ofList]
  have hmonth' : t.date.month < 100 := Nat.lt_of_le_of_lt hmonth.2 (by decide)
  have hhour : t.hour.val < 100 := Nat.lt_trans t.hour.isLt (by decide)
  have hminute : t.minute.val < 100 := Nat.lt_trans t.minute.isLt (by decide)
  have hsecond : t.second.val < 100 := Nat.lt_trans t.second.isLt (by decide)
  refine Option.bind_eq_some_iff.mpr ⟨_, year?_yearChars hlo hhi (hdash _), ?_⟩
  refine Option.bind_eq_some_iff.mpr ⟨_, hhyphen _, ?_⟩
  refine Option.bind_eq_some_iff.mpr ⟨_, number?_digits hmonth', ?_⟩
  refine Option.bind_eq_some_iff.mpr ⟨_, hhyphen _, ?_⟩
  refine Option.bind_eq_some_iff.mpr ⟨_, number?_digits hshort, ?_⟩
  refine Option.bind_eq_some_iff.mpr ⟨_, Date.of?_self t.date, ?_⟩
  refine Option.bind_eq_some_iff.mpr ⟨_, hletter _, ?_⟩
  refine Option.bind_eq_some_iff.mpr ⟨_, number?_digits hhour, ?_⟩
  refine Option.bind_eq_some_iff.mpr ⟨_, hcolon _, ?_⟩
  refine Option.bind_eq_some_iff.mpr ⟨_, number?_digits hminute, ?_⟩
  refine Option.bind_eq_some_iff.mpr ⟨_, hcolon _, ?_⟩
  refine Option.bind_eq_some_iff.mpr ⟨_, number?_digits hsecond, ?_⟩
  refine Option.bind_eq_some_iff.mpr ⟨_, decimals?_decimals t.nano.isLt, ?_⟩
  refine Option.bind_eq_some_iff.mpr ⟨_, offset?_utc, ?_⟩
  refine Option.bind_eq_some_iff.mpr ⟨(), rfl, ?_⟩
  refine Option.bind_eq_some_iff.mpr ⟨_, below?_val t.hour, ?_⟩
  refine Option.bind_eq_some_iff.mpr ⟨_, below?_val t.minute, ?_⟩
  refine Option.bind_eq_some_iff.mpr ⟨_, below?_val t.second, ?_⟩
  refine Option.bind_eq_some_iff.mpr ⟨_, below?_val t.nano, ?_⟩
  exact ofLocal?_utc t

/-- A leap second in a place where the next day has begun already. -/
example : (parse? "2024-03-01T00:59:60.5+01:00").map text = some "2024-02-29T23:59:60.500Z" := by
  decide

end Timestamp
end ClusterKit
