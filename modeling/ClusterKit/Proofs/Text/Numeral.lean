/-
# Numerals

Versions, limits and timeouts travel as decimal numerals. A numeral tells its number: the
digits are read back, and only a negative number has a sign before them.

Key theorems: `Numeral.nat_injective`, `Numeral.int_injective`.
-/
import Mathlib.Tactic.Common

namespace ClusterKit
namespace Numeral

-- `Nat.repr_injective` and `Int.repr_injective` say the same, but only the whole of Mathlib
-- brings them in.

/-- Digits are read back. -/
theorem nat_injective : Function.Injective (toString : Nat → String) := by
  intro m n h
  change m.repr = n.repr at h
  rw [Nat.repr_eq_ofList_toDigits, Nat.repr_eq_ofList_toDigits, String.ofList_inj] at h
  calc m = Nat.ofDigitChars 10 (Nat.toDigits 10 m) 0 := Nat.ofDigitChars_ten_toDigits.symm
    _ = Nat.ofDigitChars 10 (Nat.toDigits 10 n) 0 := by rw [h]
    _ = n := Nat.ofDigitChars_ten_toDigits

/-- No digit is the sign. -/
theorem repr_ne_minus_append (n : Nat) (s : String) : n.repr ≠ "-" ++ s := by
  intro h
  have hsign : '-' ∈ Nat.toDigits 10 n := by
    have := congrArg String.toList h
    rw [Nat.repr_eq_ofList_toDigits, String.toList_ofList, String.toList_append] at this
    exact this ▸ List.mem_cons_self
  exact absurd (Nat.isDigit_of_mem_toDigits (by decide) (by decide) hsign) (by decide)

theorem int_injective : Function.Injective (toString : Int → String) := by
  intro i j h
  change i.repr = j.repr at h
  rw [Int.repr_eq_if, Int.repr_eq_if] at h
  split at h <;> split at h
  · have := nat_injective h
    omega
  · exact absurd h (repr_ne_minus_append _ _)
  · exact absurd h.symm (repr_ne_minus_append _ _)
  · have := nat_injective (String.append_right_inj _ |>.mp h)
    omega

end Numeral
end ClusterKit
