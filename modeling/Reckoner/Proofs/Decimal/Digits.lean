import Mathlib.Data.Int.Log
import Reckoner.Decimal.Logarithm
import Reckoner.Proofs.Decimal.Value

/-!
# The digits of a decimal

The count of a number's digits tells between which powers of ten it lies (`pow_digitCount_le`,
`lt_pow_digitCount`), and so does the count of a decimal's digits less its places (`log_scaled`).
-/
namespace Reckoner.Decimal

def scaled (n : Nat) (places : Int) : ℚ := n * 10 ^ (-places)

theorem scaled_pos {n : Nat} (hn : 0 < n) (places : Int) : 0 < scaled n places := by
  unfold scaled
  positivity

theorem scaled_nonneg (n : Nat) (places : Int) : 0 ≤ scaled n places := by
  unfold scaled
  positivity

theorem value_eq_scaled {a : Decimal} (ha : 0 ≤ a.magnitude) :
    a.value = scaled a.magnitude.toNat a.places := by
  have hcast : ((a.magnitude.toNat : Nat) : ℚ) = a.magnitude := by
    exact_mod_cast Int.toNat_of_nonneg ha
  rw [value, scaled, hcast, zpow_neg, zpow_natCast, div_eq_mul_inv]

theorem value_eq_signed (a : Decimal) :
    a.value = (if a.magnitude < 0 then -1 else 1) * scaled a.magnitude.natAbs a.places := by
  have hmagnitude : (a.magnitude : ℚ) = (if a.magnitude < 0 then -1 else 1) * a.magnitude.natAbs := by
    rw [Nat.cast_natAbs, Int.cast_abs]
    split
    · rename_i hneg
      rw [abs_of_neg (by exact_mod_cast hneg), neg_one_mul, neg_neg]
    · rename_i hneg
      rw [abs_of_nonneg (by exact_mod_cast not_lt.1 hneg), one_mul]
  rw [value, scaled, zpow_neg, zpow_natCast, div_eq_mul_inv, ← mul_assoc, ← hmagnitude]

theorem value_neg_iff (a : Decimal) : a.value < 0 ↔ a.magnitude < 0 := by
  have hpow : (0 : ℚ) < 10 ^ a.places := by positivity
  rw [value, div_lt_iff₀ hpow, zero_mul]
  exact_mod_cast Iff.rfl

/-! ## Counting digits -/

theorem digitCount_pos (n : Nat) : 0 < digitCount n := Nat.length_toDigits_pos

theorem lt_pow_digitCount (n : Nat) : n < 10 ^ digitCount n :=
  (Nat.length_toDigits_le_iff (by decide) (digitCount_pos n)).1 (Nat.le_refl _)

theorem pow_digitCount_le {n : Nat} (hn : 0 < n) : 10 ^ (digitCount n - 1) ≤ n := by
  by_cases h : digitCount n = 1
  · simpa [h] using Nat.succ_le_of_lt hn
  · have hk : 0 < digitCount n - 1 := by have := digitCount_pos n; omega
    by_contra hlt
    have := (Nat.length_toDigits_le_iff (by decide) hk).2 (Nat.lt_of_not_le hlt)
    change digitCount n ≤ digitCount n - 1 at this
    omega

theorem digitCount_eq {n k : Nat} (hlo : 10 ^ k ≤ n) (hhi : n < 10 ^ (k + 1)) :
    digitCount n = k + 1 := by
  have hpos : 0 < n := lt_of_lt_of_le (by positivity) hlo
  have hle : 10 ^ k < 10 ^ digitCount n := lt_of_le_of_lt hlo (lt_pow_digitCount n)
  have hge : 10 ^ (digitCount n - 1) < 10 ^ (k + 1) := lt_of_le_of_lt (pow_digitCount_le hpos) hhi
  rw [Nat.pow_lt_pow_iff_right (by decide)] at hle hge
  omega

theorem digitCount_le {n k : Nat} (hk : 0 < k) (h : n < 10 ^ k) : digitCount n ≤ k :=
  (Nat.length_toDigits_le_iff (by decide) hk).2 h

/-- An integer is written unless it has too many digits. -/
theorem print_eq [DigitLimit] (n : Int) : Integer.print n =
    if DigitLimit.Allows (digitCount n.natAbs) then .ok (Integer.write n)
    else .error (.tooLongToPrint DigitLimit.most) := rfl

/-- Can the digits of a decimal be written? -/
def Writable [DigitLimit] (a : Decimal) : Prop := DigitLimit.Allows (digitCount a.magnitude.natAbs)

instance [DigitLimit] (a : Decimal) : Decidable a.Writable :=
  inferInstanceAs (Decidable (DigitLimit.Allows _))

theorem write_natCast (n : Nat) : Integer.write n = Integer.digits n := if_neg (by omega)

/-! ## The leading digit's place -/

theorem log_eq {x : ℚ} {k : Int} (hlo : 10 ^ k ≤ x) (hhi : x < 10 ^ (k + 1)) : Int.log 10 x = k := by
  have hpos : 0 < x := lt_of_lt_of_le (by positivity) hlo
  have hle := (Int.zpow_le_iff_le_log (b := 10) (by decide) hpos).1 (by exact_mod_cast hlo)
  have hlt := (Int.lt_zpow_iff_log_lt (b := 10) (by decide) hpos).1 (by exact_mod_cast hhi)
  omega

theorem log_scaled {n : Nat} (hn : 0 < n) (places : Int) :
    Int.log 10 (scaled n places) = (digitCount n : Int) - 1 - places := by
  obtain ⟨k, hk⟩ : ∃ k, digitCount n = k + 1 := ⟨digitCount n - 1, by have := digitCount_pos n; omega⟩
  have hlo := pow_digitCount_le hn
  have hhi := lt_pow_digitCount n
  rw [hk] at hlo hhi
  have hplaces : (0 : ℚ) < 10 ^ (-places) := by positivity
  have split (j : Nat) : (10 : ℚ) ^ ((j : Int) - places) = (10 ^ j : Nat) * 10 ^ (-places) := by
    rw [sub_eq_add_neg, zpow_add₀ (by norm_num), zpow_natCast]
    push_cast
    rfl
  refine log_eq ?_ ?_
  · have hexp : (digitCount n : Int) - 1 - places = (k : Int) - places := by omega
    rw [hexp, split, scaled]
    exact mul_le_mul_of_nonneg_right (by exact_mod_cast hlo) hplaces.le
  · have hexp : (digitCount n : Int) - 1 - places + 1 = ((k + 1 : Nat) : Int) - places := by omega
    rw [hexp, split, scaled]
    exact mul_lt_mul_of_pos_right (by exact_mod_cast hhi) hplaces

end Reckoner.Decimal
