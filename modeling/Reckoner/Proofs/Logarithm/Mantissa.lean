import Mathlib.Algebra.Order.Floor.Semifield
import Reckoner.Proofs.Decimal.Digits

/-!
# Mantissas

A positive number is split into a decade and a mantissa. The decade is the one that brings the
number into [0.7, 7) (`decade_le`, `lt_decade`), so it depends on the number alone; the mantissa is
the number in that decade, cut off to an integer (`mantissa_le`, `lt_mantissa`), and the cut leaves
it in [0.7, 7) (`seven_le_mantissa`, `mantissa_lt_seven`). Main theorem `isMantissa_normalize`: this is what
normalisation gives, as long as the digits of the number can be written.
-/
namespace Reckoner.Decimal

/-! ## Decades -/

/-- The leading digit stands at the place that the count of digits tells. -/
theorem leading_digit_bounds (n : Nat) :
    n / pow10 (digitCount n - 1) * 10 ^ (digitCount n - 1) ≤ n ∧
      n < (n / pow10 (digitCount n - 1) + 1) * 10 ^ (digitCount n - 1) := by
  have hpow : pow10 (digitCount n - 1) = 10 ^ (digitCount n - 1) := rfl
  rw [hpow]
  exact ⟨Nat.div_mul_le_self _ _, Nat.lt_mul_of_div_lt (Nat.lt_succ_self _) (by positivity)⟩

theorem decade_eq (n : Nat) (places : Int) :
    decade n places = ((digitCount n - 1 : Nat) : Int) - places +
      if 7 ≤ n / pow10 (digitCount n - 1) then 1 else 0 := by
  have := digitCount_pos n
  unfold decade
  simp only
  split <;> omega

/-- The digits of `n` before the decimal mark set the power of ten that `n · 10 ^ -places` is
compared with. -/
theorem scaled_eq (n : Nat) (places : Int) (k : Nat) :
    scaled n places = (n / 10 ^ k : ℚ) * 10 ^ ((k : Int) - places) := by
  rw [scaled, sub_eq_add_neg, zpow_add₀ (by norm_num), zpow_natCast]
  field_simp

theorem decade_le {n : Nat} (hn : 0 < n) (places : Int) :
    7 * 10 ^ (decade n places - 1) ≤ scaled n places := by
  rw [scaled_eq n places (digitCount n - 1), decade_eq]
  generalize hk : digitCount n - 1 = k
  have hlead := (leading_digit_bounds n).1
  have hone := pow_digitCount_le hn
  rw [hk] at hlead hone
  split
  · rename_i h7
    rw [add_sub_cancel_right]
    gcongr
    rw [le_div_iff₀ (by positivity)]
    exact_mod_cast (Nat.mul_le_mul_right _ h7).trans hlead
  · rw [add_zero, zpow_sub_one₀ (by norm_num)]
    have h1 : (1 : ℚ) ≤ n / 10 ^ k := by
      rw [le_div_iff₀ (by positivity), one_mul]
      exact_mod_cast hone
    have hpos : (0 : ℚ) < 10 ^ ((k : Int) - places) := by positivity
    nlinarith

theorem lt_decade (n : Nat) (places : Int) : scaled n places < 7 * 10 ^ decade n places := by
  rw [scaled_eq n places (digitCount n - 1), decade_eq]
  generalize hk : digitCount n - 1 = k
  have hlead := (leading_digit_bounds n).2
  have hlen := lt_pow_digitCount n
  rw [hk] at hlead
  split
  · have h10 : (n / 10 ^ k : ℚ) < 10 := by
      rw [div_lt_iff₀ (by positivity)]
      have hsucc : digitCount n = k + 1 := by have := digitCount_pos n; omega
      rw [hsucc, pow_succ] at hlen
      exact_mod_cast (by omega : n < 10 * 10 ^ k)
    have hpos : (0 : ℚ) < 10 ^ ((k : Int) - places) := by positivity
    rw [zpow_add_one₀ (by norm_num)]
    nlinarith
  · rename_i h7
    rw [add_zero]
    gcongr
    rw [div_lt_iff₀ (by positivity)]
    have hle : n / pow10 k + 1 ≤ 7 := by omega
    exact_mod_cast lt_of_lt_of_le hlead (Nat.mul_le_mul_right _ hle)

/-- A number has one decade, however it is represented. -/
theorem decade_congr {n n' : Nat} {places places' : Int} (hn : 0 < n) (hn' : 0 < n')
    (h : scaled n places = scaled n' places') : decade n places = decade n' places' := by
  have hle {n n' : Nat} {places places' : Int} (hn : 0 < n) (h : scaled n places = scaled n' places') :
      decade n places ≤ decade n' places' := by
    have hlt : (7 : ℚ) * 10 ^ (decade n places - 1) < 7 * 10 ^ decade n' places' :=
      lt_of_le_of_lt (decade_le hn places) (h ▸ lt_decade n' places')
    have hexp := (zpow_lt_zpow_iff_right₀ (by norm_num)).1 (lt_of_mul_lt_mul_left hlt (by norm_num))
    omega
  exact le_antisymm (hle hn h) (hle hn' h.symm)

/-! ## Cutting off -/

theorem scale10_eq_floor (n : Nat) (k : Int) : scale10 n k = ⌊(n * 10 ^ k : ℚ)⌋₊ := by
  unfold scale10
  split
  · rename_i hk
    obtain ⟨j, rfl⟩ : ∃ j : Nat, k = j := ⟨k.natAbs, by omega⟩
    have hpow : pow10 j = 10 ^ j := rfl
    have hcast : (n * 10 ^ (j : Int) : ℚ) = ((n * 10 ^ j : Nat) : ℚ) := by push_cast; rw [zpow_natCast]
    rw [Int.toNat_natCast, hcast, Nat.floor_natCast, hpow]
  · rename_i hk
    obtain ⟨j, rfl⟩ : ∃ j : Nat, k = -j := ⟨k.natAbs, by omega⟩
    have hpow : pow10 j = 10 ^ j := rfl
    have hcast : (n * 10 ^ (-(j : Int)) : ℚ) = (n : ℚ) / ((10 ^ j : Nat) : ℚ) := by
      push_cast
      rw [zpow_neg, zpow_natCast, div_eq_mul_inv]
    rw [neg_neg, Int.toNat_natCast, hcast, Nat.floor_div_eq_div, hpow]

theorem mantissa_fst (n : Nat) (places : Int) (digits : Nat) :
    (mantissa n places digits).1 = ⌊scaled n places * 10 ^ ((digits : Int) - decade n places)⌋₊ := by
  have hexp : (digits : Int) - places - decade n places = -places + ((digits : Int) - decade n places) := by
    ring
  simp only [mantissa]
  rw [scale10_eq_floor, hexp, zpow_add₀ (by norm_num), scaled, mul_assoc]

theorem mantissa_snd (n : Nat) (places : Int) (digits : Nat) :
    (mantissa n places digits).2 = decade n places := rfl

/-- A number has one mantissa and one decade, however it is represented. -/
theorem mantissa_congr {n n' : Nat} {places places' : Int} (hn : 0 < n) (hn' : 0 < n')
    (h : scaled n places = scaled n' places') (digits : Nat) :
    mantissa n places digits = mantissa n' places' digits := by
  have hdecade := decade_congr hn hn' h
  refine Prod.ext ?_ ?_
  · rw [mantissa_fst, mantissa_fst, h, hdecade]
  · rw [mantissa_snd, mantissa_snd, hdecade]

theorem mantissa_le (n : Nat) (places : Int) (digits : Nat) :
    ((mantissa n places digits).1 : ℚ) ≤
      scaled n places * 10 ^ ((digits : Int) - (mantissa n places digits).2) := by
  rw [mantissa_fst, mantissa_snd]
  exact Nat.floor_le (by unfold scaled; positivity)

theorem lt_mantissa (n : Nat) (places : Int) (digits : Nat) :
    scaled n places * 10 ^ ((digits : Int) - (mantissa n places digits).2) <
      (mantissa n places digits).1 + 1 := by
  rw [mantissa_fst, mantissa_snd]
  exact Nat.lt_floor_add_one _

theorem seven_le_mantissa {n : Nat} (hn : 0 < n) (places : Int) (digits : Nat) :
    7 * 10 ^ digits ≤ (mantissa n places (digits + 1)).1 := by
  rw [mantissa_fst]
  refine Nat.le_floor ?_
  have hsplit : (10 : ℚ) ^ (digits : Int) =
      10 ^ (decade n places - 1) * 10 ^ (((digits + 1 : Nat) : Int) - decade n places) := by
    rw [← zpow_add₀ (by norm_num)]
    congr 1
    push_cast
    ring
  push_cast
  rw [← zpow_natCast, hsplit, ← mul_assoc]
  push_cast
  gcongr
  exact decade_le hn places

theorem mantissa_lt_seven (n : Nat) (places : Int) (digits : Nat) :
    (mantissa n places digits).1 < 7 * 10 ^ digits := by
  rw [mantissa_fst]
  refine (Nat.floor_lt (by unfold scaled; positivity)).2 ?_
  have hsplit : (10 : ℚ) ^ (digits : Int) =
      10 ^ decade n places * 10 ^ ((digits : Int) - decade n places) := by
    rw [← zpow_add₀ (by norm_num)]
    congr 1
    ring
  push_cast
  rw [← zpow_natCast, hsplit, ← mul_assoc]
  gcongr
  exact lt_decade n places

/-! ## Splitting a number -/

/-- The number in the decade is a mantissa in [0.7, 7), scaled by a power of ten and cut off. -/
structure IsMantissa (digits : Nat) (x : ℚ) (m : Nat) (shift : Int) : Prop where
  le_mantissa : 7 * 10 ^ (digits - 1) ≤ m
  mantissa_lt : m < 7 * 10 ^ digits
  cut_nonneg : 0 ≤ x - m * 10 ^ (shift - digits)
  cut_lt : x - m * 10 ^ (shift - digits) < 10 ^ (shift - digits)

theorem isMantissa_mantissa {n : Nat} (hn : 0 < n) (places : Int) {digits : Nat} (hdigits : 1 ≤ digits) :
    IsMantissa digits (scaled n places) (mantissa n places digits).1 (mantissa n places digits).2 := by
  have hle := mantissa_le n places digits
  have hlt := lt_mantissa n places digits
  have hsplit : scaled n places = scaled n places * 10 ^ ((digits : Int) - (mantissa n places digits).2) *
      10 ^ ((mantissa n places digits).2 - digits) := by
    rw [mul_assoc, ← zpow_add₀ (by norm_num), sub_add_sub_cancel, sub_self, zpow_zero, mul_one]
  have hunit : (0 : ℚ) < 10 ^ ((mantissa n places digits).2 - digits) := by positivity
  generalize scaled n places * 10 ^ ((digits : Int) - (mantissa n places digits).2) = t at hle hlt hsplit
  constructor
  case le_mantissa =>
    obtain ⟨k, rfl⟩ := Nat.exists_eq_add_of_le' hdigits
    exact seven_le_mantissa hn places k
  case mantissa_lt => exact mantissa_lt_seven n places digits
  case cut_nonneg => rw [hsplit, ← sub_mul]; exact mul_nonneg (sub_nonneg.2 hle) hunit.le
  case cut_lt => rw [hsplit, ← sub_mul]; exact mul_lt_of_lt_one_left hunit (by linarith)

theorem normalize_eq [DigitLimit] (n : Nat) (places : Int) (digits : Nat) :
    normalize n places digits =
      if DigitLimit.Allows (digitCount n) then .ok (mantissa n places digits)
      else .error (.tooLongToPrint DigitLimit.most) := by
  rw [normalize, print_eq, Int.natAbs_natCast]
  split <;> rfl

/-- **Normalisation.** With one digit or more, every positive number is split into its decade and its mantissa
there, less than a unit of which is cut off. All representations of the number are split alike, except that
one with too many digits to be written is not split at all. -/
theorem isMantissa_normalize [DigitLimit] {n : Nat} (hn : 0 < n) (places : Int) {digits : Nat}
    (hdigits : 1 ≤ digits) :
    ∃ m shift, IsMantissa digits (scaled n places) m shift ∧
      ∀ (n' : Nat) (places' : Int), 0 < n' → scaled n' places' = scaled n places →
        normalize n' places' digits = if DigitLimit.Allows (digitCount n') then .ok (m, shift)
          else .error (.tooLongToPrint DigitLimit.most) := by
  refine ⟨_, _, isMantissa_mantissa hn places hdigits, fun n' places' hn' h => ?_⟩
  rw [normalize_eq, mantissa_congr hn' hn h digits]

/-- 69.9951 and 69.995100 have the same mantissa, cut off just below 7. -/
theorem isMantissa_normalize_seventy :
    let _ : DigitLimit := .standard
    normalize 699951 4 3 = .ok (6999, 1) ∧ IsMantissa 3 (scaled 699951 4) 6999 1 ∧
      normalize 69995100 6 3 = .ok (6999, 1) := by
  intro limit
  have hnormalize : normalize 699951 4 3 = .ok (6999, 1) := by decide
  obtain ⟨m, shift, hmantissa, hsame⟩ :=
    isMantissa_normalize (show 0 < 699951 by decide) 4 (show 1 ≤ 3 by decide)
  have hsplit := hsame 699951 4 (by decide) rfl
  rw [hnormalize, if_pos (by decide)] at hsplit
  obtain ⟨rfl, rfl⟩ : 6999 = m ∧ 1 = shift := by simpa using hsplit
  refine ⟨hnormalize, hmantissa, ?_⟩
  rw [hsame 69995100 6 (by decide) (by norm_num [scaled]), if_pos (by decide)]

end Reckoner.Decimal
