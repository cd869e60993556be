import Mathlib.Algebra.Order.Field.Power
import Mathlib.Data.Rat.Floor
import Mathlib.Tactic.FieldSimp
import Mathlib.Tactic.Linarith
import Mathlib.Tactic.Positivity
import Mathlib.Tactic.Ring
import Reckoner.Decimal.Arithmetic

/-!
# The value of a decimal

A decimal stands for a rational number. The exact operations compute the sum, the difference, the
product and the maximum of the rational numbers that their operands stand for.
-/
namespace Reckoner.Decimal

/-- The rational number that a decimal stands for. -/
def value (a : Decimal) : ℚ := a.magnitude / 10 ^ a.places

theorem cast_pow10 {R : Type} [Semiring R] (k : Nat) : ((pow10 k : Nat) : R) = 10 ^ k := by
  change ((10 ^ k : Nat) : R) = 10 ^ k
  push_cast
  rfl

theorem pow10_pos (k : Nat) : 0 < pow10 k := Nat.pow_pos (by decide)

theorem value_ofScaled (m p : Int) : (ofScaled m p).value = m * 10 ^ (-p) := by
  unfold ofScaled value
  split
  · rename_i hp
    obtain ⟨k, rfl⟩ : ∃ k : Nat, p = -k := ⟨p.natAbs, by omega⟩
    simp [cast_pow10]
  · rename_i hp
    obtain ⟨k, rfl⟩ : ∃ k : Nat, p = k := ⟨p.natAbs, by omega⟩
    simp [div_eq_mul_inv]

/-! ## Common places -/

theorem cast_magnitudeAt {a : Decimal} {p : Nat} (hp : a.places ≤ p) :
    (a.magnitudeAt p : ℚ) = a.value * 10 ^ p := by
  have hsplit : (10 : ℚ) ^ p = 10 ^ (p - a.places) * 10 ^ a.places := by
    rw [← pow_add, Nat.sub_add_cancel hp]
  unfold magnitudeAt value
  push_cast
  rw [cast_pow10, hsplit]
  field_simp

theorem cast_magnitudeAt_left (a b : Decimal) :
    (a.magnitudeAt (commonPlaces a b) : ℚ) = a.value * 10 ^ commonPlaces a b :=
  cast_magnitudeAt (Nat.le_max_left _ _)

theorem cast_magnitudeAt_right (a b : Decimal) :
    (b.magnitudeAt (commonPlaces a b) : ℚ) = b.value * 10 ^ commonPlaces a b :=
  cast_magnitudeAt (Nat.le_max_right _ _)

/-! ## Exact operations -/

theorem value_add (a b : Decimal) : (a.add b).value = a.value + b.value := by
  simp only [add, value, Int.cast_add]
  rw [cast_magnitudeAt_left, cast_magnitudeAt_right, ← add_mul, mul_div_cancel_right₀ _ (by positivity)]
  rfl

theorem value_sub (a b : Decimal) : (a.sub b).value = a.value - b.value := by
  simp only [sub, value, Int.cast_sub]
  rw [cast_magnitudeAt_left, cast_magnitudeAt_right, ← sub_mul, mul_div_cancel_right₀ _ (by positivity)]
  rfl

theorem value_mul (a b : Decimal) : (a.mul b).value = a.value * b.value := by
  simp only [mul, value, Int.cast_mul, pow_add]
  rw [mul_div_mul_comm]

theorem value_neg (a : Decimal) : a.neg.value = -a.value := by
  simp only [neg, value, Int.cast_neg]
  rw [neg_div]

theorem cmp_eq_compare (a b : Decimal) : a.cmp b = compare a.value b.value := by
  have hscale : (0 : ℚ) < 10 ^ commonPlaces a b := by positivity
  have hlt : a.magnitudeAt (commonPlaces a b) < b.magnitudeAt (commonPlaces a b) ↔
      a.value < b.value := by
    rw [← Int.cast_lt (R := ℚ), cast_magnitudeAt_left, cast_magnitudeAt_right, mul_lt_mul_iff_left₀ hscale]
  have heq : a.magnitudeAt (commonPlaces a b) = b.magnitudeAt (commonPlaces a b) ↔
      a.value = b.value := by
    rw [← Int.cast_inj (α := ℚ), cast_magnitudeAt_left, cast_magnitudeAt_right,
      mul_left_inj' hscale.ne']
  rcases lt_trichotomy a.value b.value with h | h | h
  · rw [cmp, compare_lt_iff_lt.2 h, compare_lt_iff_lt.2 (hlt.2 h)]
  · rw [cmp, compare_eq_iff_eq.2 h, compare_eq_iff_eq.2 (heq.2 h)]
  · rw [cmp, compare_gt_iff_gt.2 h, compare_gt_iff_gt]
    have hnlt := mt hlt.1 (lt_asymm h)
    have hneq := mt heq.1 h.ne'
    omega

/-- Decimals are equal if they stand for the same number. -/
theorem cmp_eq_iff (a b : Decimal) : a.cmp b = .eq ↔ a.value = b.value := by
  rw [cmp_eq_compare, compare_eq_iff_eq]

theorem value_max (a b : Decimal) : (a.max b).value = Max.max a.value b.value := by
  unfold max
  rw [cmp_eq_compare]
  split
  · rename_i h
    rw [Ordering.isGT_iff_eq_gt, compare_gt_iff_gt] at h
    exact (max_eq_right h.le).symm
  · rename_i h
    rw [Ordering.isGT_iff_eq_gt, compare_gt_iff_gt] at h
    exact (max_eq_left (not_lt.1 h)).symm

end Reckoner.Decimal
