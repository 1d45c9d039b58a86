/-
# The tokens of what is written

A written word, number or text is cut as the one token that it is. A word or a text
ends by itself, whatever follows; a number ends only where something else begins,
so that what stands behind it matters: in a written value a comma, the end of a list
or an object, or nothing. Inside a text every character comes back, whether it stands
for itself or is escaped.

Key definitions: `Json.Token.Apart`.
Key theorems: `Json.Token.scan_renderNumber`, `Json.Token.scan_renderText`.
-/
import ClusterKit.Json.Print
import ClusterKit.Proofs.Json.Scan

namespace ClusterKit
namespace Json

namespace Token

/-! ### Words -/

theorem scan_null (rest : List Char) :
    scanFrom .between (renderChars .null ++ rest) = .scalar .null :: scanFrom .between rest :=
  rfl

theorem scan_bool (b : Bool) (rest : List Char) :
    scanFrom .between (renderChars (.bool b) ++ rest) =
      .scalar (.bool b) :: scanFrom .between rest := by
  cases b <;> rfl

/-! ### What stands behind a value -/

/-- No number goes on with the characters: there are none, or the first is a mark. -/
def Apart (rest : List Char) : Prop :=
  ∀ c, rest.head? = some c → c = ',' ∨ c = ']' ∨ c = '\x7d'

theorem apart_nil : Apart [] :=
  nofun

theorem apart_cons {c : Char} (h : c = ',' ∨ c = ']' ∨ c = '\x7d') (cs : List Char) :
    Apart (c :: cs) := by
  intro d hd
  obtain rfl := Option.some.inj hd
  exact h

/-! ### Numbers -/

/-- Of the digits of a number only those of zero begin with zero. -/
theorem toDigits_cases (n : Nat) :
    n = 0 ∧ Nat.toDigits 10 n = ['0'] ∨
      n ≠ 0 ∧ ∃ d ds, Nat.toDigits 10 n = d :: ds ∧ d ≠ '0' := by
  induction n using Nat.strongRecOn with
  | ind n ih =>
    by_cases hn : n < 10
    · rw [Nat.toDigits_of_lt_base hn]
      by_cases h0 : n = 0
      · exact .inl ⟨h0, by rw [h0]; rfl⟩
      · have hdigit : ∀ m < 10, m ≠ 0 → Nat.digitChar m ≠ '0' := by decide
        exact .inr ⟨h0, _, [], rfl, hdigit n hn h0⟩
    · have hle : 10 ≤ n := Nat.le_of_not_lt hn
      right
      refine ⟨by omega, ?_⟩
      rcases ih (n / 10) (by omega) with ⟨h0, -⟩ | ⟨-, d, ds, hds, hd⟩
      · omega
      · rw [Nat.toDigits_of_base_le (by decide) hle, hds]
        exact ⟨d, _, rfl, hd⟩

namespace NumberState

/-- Digits that make up a number of 64 bits are gathered as this number. -/
theorem gather_eq {ds : List Char} : ∀ {n : Nat}, Nat.ofDigitChars 10 ds n < 2 ^ (64 : Nat) →
    gather n ds = (Nat.ofDigitChars 10 ds n, 0) := by
  induction ds with
  | nil => exact fun _ => rfl
  | cons d ds ih =>
    intro n h
    rw [Nat.ofDigitChars_cons] at h ⊢
    have hle : 10 * n + (d.toNat - '0'.toNat) ≤
        Nat.ofDigitChars 10 ds (10 * n + (d.toNat - '0'.toNat)) := by
      rw [Nat.ofDigitChars_eq_ofDigitChars_zero]
      have hpos : 0 < 10 ^ ds.length := Nat.pow_pos (by decide)
      have hmul := Nat.le_mul_of_pos_left (10 * n + (d.toNat - '0'.toNat)) hpos
      omega
    rw [gather, if_pos (Nat.lt_of_le_of_lt hle h), ih h]

/-- Further digits go on with a number that has begun. -/
theorem run_digits {ds : List Char} (h : ∀ d ∈ ds, d.isDigit = true) :
    ∀ {n : NumberState}, n.point = .digits →
      (Mode.number n).run ds = ([], .number { n with digits := ds.reverse ++ n.digits }) := by
  induction ds with
  | nil => exact fun _ => rfl
  | cons d ds ih =>
    intro n hn
    have hpush : n.push? d = some { n with digits := d :: n.digits } := by
      unfold push?
      rw [hn]
      dsimp only
      rw [if_pos (h d List.mem_cons_self)]
    have hrun := ih (fun e he => h e (List.mem_cons_of_mem _ he))
      (n := { n with digits := d :: n.digits }) hn
    rw [Mode.run, Mode.step, hpush]
    dsimp only
    rw [hrun]
    simp

/-- The state behind the digits of `n`. -/
def written (negative : Bool) (n : Nat) : NumberState :=
  ⟨negative, (Nat.toDigits 10 n).reverse, [], false, [], if n = 0 then .zero else .digits⟩

theorem run_toDigits (negative : Bool) (n : Nat) :
    (Mode.number (.init negative)).run (Nat.toDigits 10 n) =
      ([], .number (written negative n)) := by
  have hdigits : ∀ d ∈ Nat.toDigits 10 n, d.isDigit = true :=
    fun d hd => Nat.isDigit_of_mem_toDigits (by decide) (by decide) hd
  rcases toDigits_cases n with ⟨rfl, hn⟩ | ⟨h0, d, ds, hn, hd⟩
  · rw [hn]
    rfl
  · have hpush : (init negative).push? d = some { init negative with
        digits := [d], point := .digits } := by
      unfold push? init
      dsimp only
      rw [if_neg hd, if_pos (hdigits d (by simp [hn]))]
    have hrest : ∀ e ∈ ds, e.isDigit = true := fun e he => hdigits e (by simp [hn, he])
    have hrun := run_digits hrest (n := { init negative with digits := [d], point := .digits }) rfl
    rw [written, hn, if_neg h0, Mode.run, Mode.step, hpush]
    dsimp only
    rw [hrun]
    simp [init]

/-- The number that the digits of `n` make up. -/
theorem token_written (negative : Bool) (n : Nat) (h : n < 2 ^ (64 : Nat))
    (hnegative : negative = true → n ≠ 0 ∧ n ≤ 2 ^ (63 : Nat)) :
    (written negative n).token = .scalar (.number (.whole (if negative then -n else n))) := by
  have hgather : gather 0 (Nat.toDigits 10 n) = (n, 0) := by
    have hvalue : Nat.ofDigitChars 10 (Nat.toDigits 10 n) 0 = n := Nat.ofDigitChars_ten_toDigits
    rw [gather_eq (by rwa [hvalue]), hvalue]
  have hpoint : (written negative n).point = .zero ∨ (written negative n).point = .digits := by
    unfold written
    by_cases h0 : n = 0 <;> simp [h0]
  have hvalue : (written negative n).value? = some (.whole (if negative then -n else n)) := by
    rw [value?_whole_iff]
    refine ⟨hpoint, ?_, ?_⟩
    · simp [written, hgather]
    · cases negative with
      | false => exact .inl ⟨rfl, by simp [written, hgather]⟩
      | true =>
        right
        simpa [written, hgather] using hnegative rfl
  unfold token
  rw [hvalue]

/-- A whole number ends where something else begins. -/
theorem scanFrom_of_apart {n : NumberState} (hn : n.point = .zero ∨ n.point = .digits)
    {rest : List Char} (h : Apart rest) :
    scanFrom (.number n) rest = n.token :: scanFrom .between rest := by
  have hcomplete : n.complete = true := by
    unfold complete
    rcases hn with hn | hn <;> simp [hn]
  cases rest with
  | nil => simp [scanFrom, Mode.finish, hcomplete]
  | cons c cs =>
    have hc := h c rfl
    have hdigit : c.isDigit = false := by rcases hc with rfl | rfl | rfl <;> rfl
    have hpush : n.push? c = none := by
      unfold push?
      rcases hn with hn | hn <;> rcases hc with rfl | rfl | rfl <;> simp [hn]
    have hstep : (Mode.number n).step c = (n.token :: (Mode.start c).1, (Mode.start c).2) := by
      simp [Mode.step, hpush, hdigit, hcomplete]
    rw [scanFrom, hstep]
    rfl

end NumberState

/-- A digit between tokens begins a number without a sign. -/
theorem start_of_isDigit {c : Char} (h : c.isDigit = true) :
    Mode.start c = (Mode.number (.init false)).step c := by
  have hne : ∀ d : Char, d.isDigit = false → c ≠ d := by
    rintro d hd rfl
    exact Bool.false_ne_true (hd.symm.trans h)
  have hpush : ∃ m, (NumberState.init false).push? c = some m := by
    unfold NumberState.push? NumberState.init
    dsimp only
    by_cases h0 : c = '0'
    · exact ⟨_, if_pos h0⟩
    · exact ⟨_, by rw [if_neg h0, if_pos h]⟩
  obtain ⟨m, hm⟩ := hpush
  rw [Mode.step, Mode.start, hm]
  simp [hne]

/-- The digits of a number of 64 bits are cut as it, with the sign that they are behind. -/
theorem scanFrom_toDigits (negative : Bool) (k : Nat) (hk : k < 2 ^ (64 : Nat))
    (hnegative : negative = true → k ≠ 0 ∧ k ≤ 2 ^ (63 : Nat)) {rest : List Char}
    (h : Apart rest) :
    scanFrom (.number (.init negative)) (Nat.toDigits 10 k ++ rest) =
      .scalar (.number (.whole (if negative then -k else k))) :: scanFrom .between rest := by
  have hpoint : (NumberState.written negative k).point = .zero ∨
      (NumberState.written negative k).point = .digits := by
    unfold NumberState.written
    by_cases h0 : k = 0 <;> simp [h0]
  rw [scanFrom_append, NumberState.run_toDigits, List.nil_append,
    NumberState.scanFrom_of_apart hpoint h, NumberState.token_written negative k hk hnegative]

/-- A written whole number of 64 bits is cut as this number. -/
theorem scan_renderNumber {n : Int} (hlo : -2 ^ (63 : Nat) ≤ n) (hhi : n < 2 ^ (64 : Nat))
    {rest : List Char} (h : Apart rest) : scanFrom .between (renderNumber (.whole n) ++ rest) =
      .scalar (.number (.whole n)) :: scanFrom .between rest := by
  rw [renderNumber, Int.toString_eq_repr, Int.repr_eq_if]
  by_cases hn : 0 ≤ n
  · obtain ⟨k, rfl⟩ := Int.eq_ofNat_of_zero_le hn
    have hcut := scanFrom_toDigits false k (by omega) nofun h
    obtain ⟨d, ds, hds⟩ := List.exists_cons_of_ne_nil (Nat.toDigits_ne_nil (n := k) (b := 10))
    have hd : d.isDigit = true :=
      Nat.isDigit_of_mem_toDigits (by decide) (by decide) (hds ▸ List.mem_cons_self)
    rw [if_pos hn, Int.toNat_natCast, Nat.toList_repr, hds, List.cons_append, scanFrom, Mode.step,
      start_of_isDigit hd]
    rw [hds, List.cons_append, scanFrom] at hcut
    exact hcut
  · obtain ⟨k, hk⟩ := Int.eq_ofNat_of_zero_le (show 0 ≤ -n by omega)
    obtain rfl : n = -k := by omega
    have hcut := scanFrom_toDigits true k (by omega) (fun _ => by omega) h
    rw [if_neg hn, Int.neg_neg, Int.toNat_natCast, String.toList_append, Nat.toList_repr]
    exact hcut

/-! ### Texts -/

namespace TextState

/-- A text of the characters so far, the last first, in which nothing is missing. -/
def whole (cs : List Char) : TextState :=
  ⟨cs, none, false, .plain⟩

theorem fourDigits_of_lt : ∀ n < 0x20, ∃ c d, fourDigits n = ['0', '0', c, d] ∧
    hexValue? c = some (n / 16) ∧ hexValue? d = some (n % 16) := by
  have hdigits : ∀ n < 0x20, fourDigits n = ['0', '0', Nat.digitChar (n / 16),
      Nat.digitChar (n % 16)] ∧ hexValue? (Nat.digitChar (n / 16)) = some (n / 16) ∧
      hexValue? (Nat.digitChar (n % 16)) = some (n % 16) := by decide
  exact fun n hn => ⟨_, _, hdigits n hn⟩

/-- A control that is written by its code. -/
theorem run_unit (cs : List Char) {n : Nat} (h : n < 0x20) :
    (Mode.text (whole cs)).run ('\\' :: 'u' :: fourDigits n) =
      ([], .text (whole (Char.ofNat n :: cs))) := by
  obtain ⟨c, d, hdigits, hc, hd⟩ := fourDigits_of_lt n h
  have h0 : hexValue? '0' = some 0 := rfl
  have hcode : 16 * (n / 16) + n % 16 = n := Nat.div_add_mod n 16
  have hunit : (⟨cs, none, false, .hex 3 (n / 16)⟩ : TextState).pushUnit n =
      whole (Char.ofNat n :: cs) := by
    simp [pushUnit, whole, show ¬ 0xDC00 ≤ n by omega, show ¬ 0xD800 ≤ n by omega]
  rw [hdigits]
  simp [Mode.run, Mode.step, Mode.stepText, whole, h0, hc, hd, hcode, hunit]

/-- What is written for a character adds it to the text. -/
theorem run_escaped (cs : List Char) (c : Char) :
    (Mode.text (whole cs)).run (escaped c) = ([], .text (whole (c :: cs))) := by
  by_cases hshort : c ∈ ['"', '\\', '\x08', '\x0c', '\n', '\r', '\t']
  · simp only [List.mem_cons, List.not_mem_nil, or_false] at hshort
    rcases hshort with rfl | rfl | rfl | rfl | rfl | rfl | rfl <;> rfl
  · simp only [List.mem_cons, List.not_mem_nil, or_false, not_or] at hshort
    by_cases hcontrol : c.toNat < 0x20
    · have hrun := run_unit cs hcontrol
      rw [Char.ofNat_toNat] at hrun
      simpa [escaped, hshort, hcontrol] using hrun
    · simp [escaped, hshort, hcontrol, Mode.run, Mode.step, Mode.stepText, whole, push, settle]

theorem scanFrom_escaped (rest : List Char) : ∀ cs ds : List Char,
    scanFrom (.text (whole ds)) (cs.flatMap escaped ++ rest) =
      scanFrom (.text (whole (cs.reverse ++ ds))) rest
  | [], _ => rfl
  | c :: cs, ds => by
    rw [List.flatMap_cons, List.append_assoc, scanFrom_append, run_escaped, List.nil_append,
      scanFrom_escaped rest cs, List.reverse_cons, List.append_assoc]
    rfl

end TextState

/-- A written text is cut as this text. -/
theorem scan_renderText (s : String) (rest : List Char) :
    scanFrom .between (renderText s ++ rest) = .scalar (.text s) :: scanFrom .between rest := by
  have htoken : (TextState.whole s.toList.reverse).token = .scalar (.text s) := by
    simp [TextState.token, TextState.settle, TextState.whole]
  have hrender : renderText s ++ rest = '"' :: (s.toList.flatMap escaped ++ '"' :: rest) := by
    simp [renderText]
  have hcut := TextState.scanFrom_escaped ('"' :: rest) s.toList []
  rw [List.append_nil] at hcut
  calc scanFrom .between (renderText s ++ rest)
    _ = scanFrom (.text (.whole [])) (s.toList.flatMap escaped ++ '"' :: rest) := by
      rw [hrender]
      rfl
    _ = scanFrom (.text (.whole s.toList.reverse)) ('"' :: rest) := hcut
    _ = (TextState.whole s.toList.reverse).token :: scanFrom .between rest := rfl
    _ = .scalar (.text s) :: scanFrom .between rest := by rw [htoken]

end Token

end Json
end ClusterKit
