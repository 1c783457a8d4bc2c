import Mathlib.Algebra.Order.Ring.Nat
import Mathlib.Tactic.Ring

/-
Numbers rounded down to a mantissa of `w + 1` bits and a binary exponent. The exponent is
the least one for which the mantissa fits, so the representations are ordered as the numbers.
-/
namespace TruncatedFloat

structure Truncates (w b e m : Nat) : Prop where
  floor : m = b / 2 ^ e
  fits : m < 2 ^ (w + 1)
  normal : e = 0 ∨ 2 ^ w ≤ m

namespace Truncates
variable {w b e m b' e' m' : Nat}

theorem lower (t : Truncates w b e m) : m * 2 ^ e ≤ b := by
  rw [t.floor]
  exact Nat.div_mul_le_self b (2 ^ e)

theorem upper (t : Truncates w b e m) : b < (m + 1) * 2 ^ e := by
  rw [t.floor, Nat.mul_comm]
  exact Nat.lt_mul_div_succ b (Nat.two_pow_pos e)

/-- A number that needs no exponent is represented exactly. -/
theorem exact_small (t : Truncates w b e m) (small : b < 2 ^ (w + 1)) : m = b := by
  rcases t.normal with rfl | top
  · simpa using t.floor
  · have shifted := t.lower
    cases e with
    | zero => simpa using t.floor
    | succ e =>
      have doubled : 2 ^ w * 2 ^ 1 ≤ m * 2 ^ (e + 1) :=
        Nat.mul_le_mul top (Nat.pow_le_pow_right (by omega) (by omega))
      rw [← Nat.pow_add] at doubled
      omega

theorem top_bit (t : Truncates w b e m) (large : 2 ^ (w + 1) ≤ b) : 2 ^ w ≤ m := by
  rcases t.normal with rfl | top
  · have whole : m = b := by simpa using t.floor
    have fits := t.fits
    omega
  · exact top

theorem exponent_le (t : Truncates w b e m) {k : Nat} (bound : b < 2 ^ (w + 1 + k)) : e ≤ k := by
  rcases t.normal with rfl | top
  · exact Nat.zero_le k
  · by_contra above
    have scaled : 2 ^ w * 2 ^ (k + 1) ≤ m * 2 ^ e :=
      Nat.mul_le_mul top (Nat.pow_le_pow_right (by omega) (by omega))
    have same : 2 ^ w * 2 ^ (k + 1) = 2 ^ (w + 1 + k) := by rw [← Nat.pow_add]; congr 1; omega
    have lower := t.lower
    omega

/-- A larger exponent stands for a larger number. -/
theorem exponent_mono (t : Truncates w b e m) (t' : Truncates w b' e' m') (order : b ≤ b') : e ≤ e' := by
  refine t.exponent_le (Nat.lt_of_le_of_lt order ?_)
  have upper := t'.upper
  have scaled : (m' + 1) * 2 ^ e' ≤ 2 ^ (w + 1) * 2 ^ e' := Nat.mul_le_mul_right _ t'.fits
  rw [← Nat.pow_add] at scaled
  omega

theorem mantissa_mono (t : Truncates w b e m) (t' : Truncates w b' e m') (order : b ≤ b') : m ≤ m' := by
  rw [t.floor, t'.floor]
  exact Nat.div_le_div_right order

/-- Exponent and mantissa side by side compare as the numbers do. -/
theorem field_mono (t : Truncates w b e m) (t' : Truncates w b' e' m') (order : b ≤ b') :
    e * 2 ^ (w + 1) + m ≤ e' * 2 ^ (w + 1) + m' := by
  rcases Nat.lt_or_eq_of_le (t.exponent_mono t' order) with less | rfl
  · have fits := t.fits
    have step : (e + 1) * 2 ^ (w + 1) ≤ e' * 2 ^ (w + 1) := Nat.mul_le_mul_right _ less
    rw [Nat.add_mul, Nat.one_mul] at step
    omega
  · exact Nat.add_le_add_left (t.mantissa_mono t' order) _

theorem value_mono (t : Truncates w b e m) (t' : Truncates w b' e' m') (order : b ≤ b') :
    m * 2 ^ e ≤ m' * 2 ^ e' := by
  rcases Nat.lt_or_eq_of_le (t.exponent_mono t' order) with less | rfl
  · have top : 2 ^ w ≤ m' := t'.normal.resolve_left (by omega)
    calc m * 2 ^ e ≤ 2 ^ (w + 1) * 2 ^ e := Nat.mul_le_mul_right _ (Nat.le_of_lt t.fits)
      _ = 2 ^ w * 2 ^ (e + 1) := by ring
      _ ≤ m' * 2 ^ e' := Nat.mul_le_mul top (Nat.pow_le_pow_right (by omega) less)
  · exact Nat.mul_le_mul_right _ (t.mantissa_mono t' order)

end Truncates
end TruncatedFloat
