/-
# Numbers that go on

A number is taken character by character. One that could end where it stands, and goes
on to a whole number, is whole itself, and between zero and what it goes on to.

Key definitions: `Number.Before`, `Token.NumberState.Leads`.
Key theorem: `Token.NumberState.Leads.before`.
-/
import ClusterKit.Json.Token
import Mathlib.Tactic.Common

namespace ClusterKit
namespace Json

/-- Where a whole number `n` goes on from a number `m`, `m` is whole too and between zero
and `n`. -/
def Number.Before (m n : Number) : Prop :=
  ∀ b, n = .whole b → ∃ a, m = .whole a ∧ (0 ≤ a ∧ a ≤ b ∨ b ≤ a ∧ a ≤ 0)

theorem Number.before_refl (n : Number) : n.Before n := by
  intro b h
  exact ⟨b, h, by omega⟩

namespace Token
namespace NumberState

theorem gather_append (n : Nat) (ds es : List Char) :
    gather n (ds ++ es) =
      if (gather n ds).2 = 0 then gather (gather n ds).1 es
      else ((gather n ds).1, (gather n ds).2 + es.length) := by
  induction ds generalizing n with
  | nil => rfl
  | cons d ds ih =>
    simp only [List.cons_append, gather]
    split
    · exact ih _
    · rw [if_neg (Nat.succ_ne_zero _), List.length_append]
      congr 1
      omega

theorem le_gather (n : Nat) (ds : List Char) : n ≤ (gather n ds).1 := by
  induction ds generalizing n with
  | nil => exact Nat.le_refl n
  | cons d ds ih =>
    simp only [gather]
    split
    · exact Nat.le_trans (by omega) (ih _)
    · exact Nat.le_refl n

/-- The number `n'` comes from `n` by more characters. -/
inductive Leads : NumberState → NumberState → Prop
  | refl (n : NumberState) : Leads n n
  | push {n m n' : NumberState} {c : Char} (h : n.push? c = some m) (hm : Leads m n') : Leads n n'

/-- A whole part that does not begin with zero is not zero. -/
def Sound (n : NumberState) : Prop :=
  n.point = .digits → ∃ ds d, n.digits = ds ++ [d] ∧ '0'.toNat < d.toNat

theorem toNat_of_isDigit {c : Char} (h : c.isDigit = true) (h0 : c ≠ '0') :
    '0'.toNat < c.toNat := by
  have hne : c.toNat ≠ '0'.toNat := fun heq => h0 (Char.toNat_inj.mp heq)
  have hle : '0'.toNat ≤ c.toNat := (Char.isDigit_iff_toNat.mp h).1
  omega

/-- A number without a point or an exponent that has just got one more character. -/
theorem push?_whole {n m : NumberState} {c : Char} (h : n.push? c = some m)
    (hm : m.point = .zero ∨ m.point = .digits) :
    n.point = .minus ∧ (m.point = .digits → m.digits = [c] ∧ '0'.toNat < c.toNat) ∨
      n.point = .digits ∧ m.point = .digits ∧ m.digits = c :: n.digits ∧
        m.negative = n.negative := by
  unfold push? at h
  split at h <;> grind [toNat_of_isDigit]

theorem point_of_push? {n m : NumberState} {c : Char} (h : n.push? c = some m) :
    m.point ≠ .minus := by
  unfold push? at h
  split at h <;> grind

theorem sound_init (negative : Bool) : (init negative).Sound := by
  intro h
  cases h

theorem Sound.push {n m : NumberState} {c : Char} (hn : n.Sound) (h : n.push? c = some m) :
    m.Sound := by
  intro hm
  rcases push?_whole h (.inr hm) with ⟨-, hfirst⟩ | ⟨hpoint, -, hdigits, -⟩
  · obtain ⟨hdigits, hc⟩ := hfirst hm
    exact ⟨[], c, hdigits, hc⟩
  · obtain ⟨ds, d, hds, hd⟩ := hn hpoint
    exact ⟨c :: ds, d, by rw [hdigits, hds]; rfl, hd⟩

/-- What a number without a point or an exponent comes from. -/
theorem Leads.whole {n n' : NumberState} (h : Leads n n')
    (hn' : n'.point = .zero ∨ n'.point = .digits) :
    n = n' ∨ n.point = .minus ∨ n.point = .digits ∧ n'.point = .digits ∧
      n'.negative = n.negative ∧ ∃ ds, n'.digits = ds ++ n.digits := by
  induction h with
  | refl n => exact .inl rfl
  | push hpush _ ih =>
    rename_i n m n' c hm
    rcases ih hn' with rfl | hminus | ⟨hm, hpoint, hnegative, ds, hds⟩
    · rcases push?_whole hpush hn' with ⟨hminus, -⟩ | ⟨hpoint, hpoint', hdigits, hnegative⟩
      · exact .inr (.inl hminus)
      · exact .inr (.inr ⟨hpoint, hpoint', hnegative, [c], hdigits⟩)
    · exact absurd hminus (point_of_push? hpush)
    · rcases push?_whole hpush (.inr hm) with ⟨hminus, -⟩ | ⟨hpoint', -, hdigits, hnegative'⟩
      · exact .inr (.inl hminus)
      · exact .inr (.inr ⟨hpoint', hpoint, hnegative.trans hnegative', ds ++ [c],
          by rw [hds, hdigits, List.append_assoc]; rfl⟩)

/-- The numbers that have a whole value. -/
theorem value?_whole_iff {n : NumberState} {b : Int} :
    n.value? = some (.whole b) ↔
      (n.point = .zero ∨ n.point = .digits) ∧ (gather 0 n.digits.reverse).2 = 0 ∧
        (n.negative = false ∧ b = (gather 0 n.digits.reverse).1 ∨
          n.negative = true ∧ (gather 0 n.digits.reverse).1 ≠ 0 ∧
            (gather 0 n.digits.reverse).1 ≤ 2 ^ (63 : Nat) ∧ b = -(gather 0 n.digits.reverse).1) := by
  unfold value?
  generalize gather 0 n.digits.reverse = g
  obtain ⟨v, left⟩ := g
  dsimp only
  have hreal : ∀ o : Option Decimal, o.map Number.real ≠ some (.whole b) := by
    intro o
    cases o <;> exact nofun
  grind

theorem Sound.gather_ne_zero {n : NumberState} (h : n.Sound) (hn : n.point = .digits)
    (hleft : (gather 0 n.digits.reverse).2 = 0) : (gather 0 n.digits.reverse).1 ≠ 0 := by
  obtain ⟨ds, d, hds, hd⟩ := h hn
  rw [hds, List.reverse_append, List.reverse_singleton, List.singleton_append] at hleft ⊢
  simp only [gather] at hleft ⊢
  split
  · have hle := le_gather (10 * 0 + (d.toNat - '0'.toNat)) ds.reverse
    omega
  · rename_i hlarge
    rw [if_neg hlarge] at hleft
    exact absurd hleft (Nat.succ_ne_zero _)

/-- A number that could end and goes on to a whole one is whole, on the same side of zero. -/
theorem Leads.before {n n' : NumberState} {m m' : Number} (h : Leads n n') (hs : n.Sound)
    (hc : n.complete = true) (hm : n.value? = some m) (hm' : n'.value? = some m') :
    m.Before m' := by
  intro b hb
  subst hb
  obtain ⟨hpoint, hleft', hvalue'⟩ := value?_whole_iff.mp hm'
  rcases h.whole hpoint with rfl | hminus | ⟨hpoint, -, hnegative, ds, hds⟩
  · rw [hm] at hm'
    exact Number.before_refl m b (Option.some.inj hm')
  · rw [complete, hminus] at hc
    cases hc
  · have happend := gather_append 0 n.digits.reverse ds.reverse
    rw [← List.reverse_append, ← hds] at happend
    -- a digit that is too much for `n` is too much for `n'` as well
    have hleft : (gather 0 n.digits.reverse).2 = 0 := by
      by_contra hne
      rw [if_neg hne] at happend
      rw [happend] at hleft'
      dsimp only at hleft'
      omega
    rw [if_pos hleft] at happend
    have hle := le_gather (gather 0 n.digits.reverse).1 ds.reverse
    rw [← happend] at hle
    have hne := hs.gather_ne_zero hpoint hleft
    rw [hnegative] at hvalue'
    rcases hvalue' with ⟨hsign, rfl⟩ | ⟨hsign, -, hmax, rfl⟩
    · have hwhole := value?_whole_iff.mpr ⟨.inr hpoint, hleft, .inl ⟨hsign, rfl⟩⟩
      exact ⟨_, Option.some.inj (hm.symm.trans hwhole), .inl (by omega)⟩
    · have hwhole := value?_whole_iff.mpr
        ⟨.inr hpoint, hleft, .inr ⟨hsign, hne, Nat.le_trans hle hmax, rfl⟩⟩
      exact ⟨_, Option.some.inj (hm.symm.trans hwhole), .inr (by omega)⟩

end NumberState

end Token
end Json
end ClusterKit
