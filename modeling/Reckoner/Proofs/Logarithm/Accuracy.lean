import Reckoner.Proofs.Logarithm.Reduction
import Reckoner.Proofs.Logarithm.Series

/-!
# How good the logarithm is

With the default settings the computed logarithm of any positive number is within `10 ^ -33` of the
real one (`log10_accurate`). Nearly all of the error is what 60 terms of the series leave out at the
edge of the band; the cuts in the reduction, in the series and in the constant `1 / ln 10` add a few
units of the fortieth digit.
-/
namespace Reckoner.Decimal

open Finset

/-! ## The constant -/

/-- `ln 10` from logarithms close to zero, `10 = (16/15)^23 (25/24)^17 (81/80)^10`. -/
theorem log_ten_eq : Real.log 10 =
    -(23 * Real.log (1 - 1 / 16) + 17 * Real.log (1 - 1 / 25) + 10 * Real.log (1 - 1 / 81)) := by
  have h2 : Real.log 10 = Real.log 2 + Real.log 5 := by
    rw [← Real.log_mul (by norm_num) (by norm_num)]
    norm_num
  have h16 : Real.log (1 - 1 / 16) = Real.log 3 + Real.log 5 - 4 * Real.log 2 := by
    rw [show (1 - 1 / 16 : ℝ) = 3 * 5 / 2 ^ 4 by norm_num, Real.log_div (by norm_num) (by norm_num),
      Real.log_mul (by norm_num) (by norm_num), Real.log_pow]
    norm_num
  have h25 : Real.log (1 - 1 / 25) = 3 * Real.log 2 + Real.log 3 - 2 * Real.log 5 := by
    rw [show (1 - 1 / 25 : ℝ) = 2 ^ 3 * 3 / 5 ^ 2 by norm_num, Real.log_div (by norm_num) (by norm_num),
      Real.log_mul (by norm_num) (by norm_num), Real.log_pow, Real.log_pow]
    norm_num
  have h81 : Real.log (1 - 1 / 81) = 4 * Real.log 2 + Real.log 5 - 4 * Real.log 3 := by
    rw [show (1 - 1 / 81 : ℝ) = 2 ^ 4 * 5 / 3 ^ 4 by norm_num, Real.log_div (by norm_num) (by norm_num),
      Real.log_mul (by norm_num) (by norm_num), Real.log_pow, Real.log_pow]
    norm_num
  rw [h2, h16, h25, h81]
  ring

theorem log_ten_near : |Real.log 10 - 2.302585092994045684017991454684364207601101488628| ≤ 1 / 10 ^ 36 := by
  have h16 := abs_log_add_sum_range_le (y := 1 / 16) (by rw [abs_of_pos] <;> norm_num) 32
  have h25 := abs_log_add_sum_range_le (y := 1 / 25) (by rw [abs_of_pos] <;> norm_num) 28
  have h81 := abs_log_add_sum_range_le (y := 1 / 81) (by rw [abs_of_pos] <;> norm_num) 21
  rw [log_ten_eq]
  generalize Real.log (1 - 1 / 16) = a at h16 ⊢
  generalize Real.log (1 - 1 / 25) = b at h25 ⊢
  generalize Real.log (1 - 1 / 81) = c at h81 ⊢
  rw [abs_of_pos (show (0 : ℝ) < 1 / 16 by norm_num), abs_le] at h16
  rw [abs_of_pos (show (0 : ℝ) < 1 / 25 by norm_num), abs_le] at h25
  rw [abs_of_pos (show (0 : ℝ) < 1 / 81 by norm_num), abs_le] at h81
  norm_num [sum_range_succ] at h16 h25 h81
  rw [abs_le]
  constructor <;> linarith

theorem invLn10_near :
    |((Settings.invLn10 {} : Nat) : ℝ) / 10 ^ 40 - 1 / Real.log 10| ≤ 1 / 10 ^ 36 := by
  have hlog := two_lt_log_ten
  have hnear := abs_le.1 log_ten_near
  generalize Real.log 10 = l at hlog hnear ⊢
  have hpos : 0 < l := by linarith
  have hsplit : ((Settings.invLn10 {} : Nat) : ℝ) / 10 ^ 40 - 1 / l =
      (((Settings.invLn10 {} : Nat) : ℝ) / 10 ^ 40 * l - 1) / l := by field_simp
  rw [hsplit, abs_div, abs_of_pos hpos, div_le_iff₀ hpos, abs_le]
  norm_num at hnear ⊢
  constructor <;> linarith

/-! ## The logarithm of a mantissa in the band -/

/-- How far a mantissa is from one. -/
noncomputable def offset (m : Nat) : ℝ := ((m : ℝ) - (pow10 40 : Nat)) / (pow10 40 : Nat)

theorem offset_eq (m : Nat) : offset m = (m - 10 ^ 40) / 10 ^ 40 := by rw [offset, cast_pow10]

theorem abs_offset_le {m : Nat} (hm : inBand 40 m = true) : |offset m| ≤ 3 / 10 := by
  obtain ⟨hlow, hhigh⟩ := inBand_iff.1 hm
  have hlow' : (7 * 10 ^ 39 : ℝ) ≤ m := by exact_mod_cast hlow
  have hhigh' : (m : ℝ) < 13 * 10 ^ 39 := by exact_mod_cast hhigh
  have hscale : (0 : ℝ) < 10 ^ 40 := by positivity
  rw [offset_eq, abs_div, abs_of_pos hscale, div_le_iff₀ hscale, abs_le]
  constructor <;> linarith

theorem logOf_eq_log_offset (m : Nat) (shift : Int) :
    logOf 40 m shift = Real.log (1 + offset m) / Real.log 10 + shift := by
  have h : 1 + offset m = m / 10 ^ 40 := by
    rw [offset_eq]
    field_simp
    ring
  rw [logOf, Real.logb, h]

theorem abs_log_one_add_le {x : ℝ} (hx : |x| ≤ 3 / 10) : |Real.log (1 + x)| ≤ 1 / 2 := by
  obtain ⟨hlow, hhigh⟩ := abs_le.1 hx
  have hpos : 0 < 1 + x := by linarith
  rw [abs_le]
  constructor
  · refine le_trans ?_ (Real.one_sub_inv_le_log_of_pos hpos)
    have hinv : (1 + x)⁻¹ ≤ 3 / 2 := by
      rw [inv_le_comm₀ hpos (by norm_num)]
      linarith
    linarith
  · exact (Real.log_le_sub_one_of_pos hpos).trans (by linarith)

theorem series_near {m : Nat} (hm : inBand 40 m = true) :
    |(series {} ((m : Int) - (pow10 40 : Nat)) : ℝ) / 10 ^ 40 - Real.log (1 + offset m)| ≤ 31 / 10 ^ 35 := by
  have hx : (((m : Int) - (pow10 40 : Nat) : Int) : ℝ) / 10 ^ Settings.logDigits {} = offset m := by
    push_cast
    rw [offset_eq, cast_pow10]
  refine (abs_series_sub_le {} hx (abs_offset_le hm)).trans ?_
  norm_num

/-- Multiplying an approximation of `y` by one of `1 / l`, and cutting off. -/
theorem abs_mul_tdiv_sub_le {sum : Int} {k : Nat} {y l : ℝ} (hsum : |(sum : ℝ) / 10 ^ 40 - y| ≤ 31 / 10 ^ 35)
    (hy : |y| ≤ 1 / 2) (hk : |(k : ℝ) / 10 ^ 40 - 1 / l| ≤ 1 / 10 ^ 36) (hk2 : (k : ℝ) / 10 ^ 40 ≤ 1 / 2) :
    |(((sum * k).tdiv (pow10 40 : Nat) : Int) : ℝ) / 10 ^ 40 - y / l| ≤ 2 / 10 ^ 34 := by
  have hpos : (0 : Int) < (pow10 40 : Nat) := by exact_mod_cast pow10_pos 40
  have hcut := abs_tdiv_sub_le (sum * k) hpos
  rw [Int.cast_mul, Int.cast_natCast, Int.cast_natCast, cast_pow10 (R := ℝ)] at hcut
  generalize (sum * k).tdiv (pow10 40 : Nat) = quotient at hcut ⊢
  have h1 : |((quotient : ℝ) - sum * k / 10 ^ 40) / 10 ^ 40| ≤ 1 / 10 ^ 40 := by
    rw [abs_div, abs_of_pos (show (0 : ℝ) < 10 ^ 40 by positivity)]
    exact div_le_div_of_nonneg_right hcut (by positivity)
  have h2 : |((sum : ℝ) / 10 ^ 40 - y) * (k / 10 ^ 40)| ≤ 31 / 10 ^ 35 * (1 / 2) := by
    rw [abs_mul, abs_of_nonneg (show (0 : ℝ) ≤ (k : ℝ) / 10 ^ 40 by positivity)]
    exact mul_le_mul hsum hk2 (by positivity) (by positivity)
  have h3 : |y * ((k : ℝ) / 10 ^ 40 - 1 / l)| ≤ 1 / 2 * (1 / 10 ^ 36) := by
    rw [abs_mul]
    exact mul_le_mul hy hk (abs_nonneg _) (by norm_num)
  calc |(quotient : ℝ) / 10 ^ 40 - y / l|
      = |((quotient : ℝ) - sum * k / 10 ^ 40) / 10 ^ 40 + (sum / 10 ^ 40 - y) * (k / 10 ^ 40) +
          y * (k / 10 ^ 40 - 1 / l)| := by
        congr 1
        ring
    _ ≤ 1 / 10 ^ 40 + 31 / 10 ^ 35 * (1 / 2) + 1 / 2 * (1 / 10 ^ 36) :=
        (abs_add_three _ _ _).trans (add_le_add (add_le_add h1 h2) h3)
    _ ≤ 2 / 10 ^ 34 := by norm_num

/-- The decimal logarithm of a mantissa, as it is computed. -/
def mantissaLog (m : Nat) : Int :=
  (series {} ((m : Int) - (pow10 40 : Nat)) * (Settings.invLn10 {} : Nat)).tdiv (pow10 40 : Nat)

theorem mantissaLog_near {m : Nat} (hm : inBand 40 m = true) :
    |(mantissaLog m : ℝ) / 10 ^ 40 - Real.log (1 + offset m) / Real.log 10| ≤ 2 / 10 ^ 34 :=
  abs_mul_tdiv_sub_le (series_near hm) (abs_log_one_add_le (abs_offset_le hm)) invLn10_near (by norm_num)

/-- The last division, by the power, makes the error smaller and adds one more cut. -/
theorem quotient_near {power : Nat} (hpower : 1 ≤ power) {m : Nat} {shift : Int} {l : ℝ}
    (hband : inBand 40 m = true) (hnear : Reduction.Near 39 l ⟨power, m, shift⟩) :
    |(((mantissaLog m + shift * (pow10 40 : Nat)).tdiv power : Int) : ℝ) / 10 ^ 40 - l| < 1 / 10 ^ 33 := by
  have hpos : (0 : Int) < power := by exact_mod_cast hpower
  have hp1 : (1 : ℝ) ≤ power := by exact_mod_cast hpower
  have hcut := abs_tdiv_sub_le (mantissaLog m + shift * (pow10 40 : Nat)) hpos
  have hlog := mantissaLog_near hband
  have hle : logOf 40 m shift ≤ power * l := hnear.le_log
  have hge : power * l ≤ logOf 40 m shift + (2 * power - 1) / 10 ^ 40 := hnear.log_le
  rw [logOf_eq_log_offset] at hle hge
  rw [Int.cast_add, Int.cast_mul, Int.cast_natCast, Int.cast_natCast, cast_pow10 (R := ℝ)] at hcut
  generalize (mantissaLog m + shift * (pow10 40 : Nat)).tdiv power = quotient at hcut ⊢
  generalize Real.log (1 + offset m) / Real.log 10 = y at hlog hle hge
  generalize (mantissaLog m : ℝ) = sum at hcut hlog
  have h1 : |(quotient - (sum + shift * 10 ^ 40) / (power : ℝ)) / 10 ^ 40| ≤ 1 / 10 ^ 40 := by
    rw [abs_div, abs_of_pos (show (0 : ℝ) < 10 ^ 40 by positivity)]
    exact div_le_div_of_nonneg_right hcut (by positivity)
  have h2 : |(sum / 10 ^ 40 - y) / (power : ℝ)| ≤ 2 / 10 ^ 34 := by
    rw [abs_div, abs_of_pos (by linarith : (0 : ℝ) < power)]
    exact (div_le_self (abs_nonneg _) hp1).trans hlog
  have h3 : |(y + shift - power * l) / (power : ℝ)| ≤ 2 / 10 ^ 40 := by
    rw [abs_div, abs_of_pos (by linarith : (0 : ℝ) < power), div_le_iff₀ (by linarith), abs_le]
    norm_num at hge ⊢
    constructor <;> linarith
  calc |(quotient : ℝ) / 10 ^ 40 - l|
      = |(quotient - (sum + shift * 10 ^ 40) / (power : ℝ)) / 10 ^ 40 + (sum / 10 ^ 40 - y) / power +
          (y + shift - power * l) / power| := by
        congr 1
        field_simp
        ring
    _ ≤ 1 / 10 ^ 40 + 2 / 10 ^ 34 + 2 / 10 ^ 40 :=
        (abs_add_three _ _ _).trans (add_le_add (add_le_add h1 h2) h3)
    _ < 1 / 10 ^ 33 := by norm_num

/-- **The logarithm is accurate.** With the default settings, the logarithm of every positive number
that can be written in its digits is within `10 ^ -33` of the real one; no other positive number has one. -/
theorem log10_accurate [DigitLimit] (a : Decimal) (ha : 0 < a.magnitude) :
    (a.Writable → ∃ r, log10 {} a = .ok r ∧ |(r.value : ℝ) - Real.logb 10 a.value| < 1 / 10 ^ 33) ∧
      (¬ a.Writable → log10 {} a = .error (.conversion (.tooLongToPrint DigitLimit.most))) := by
  refine ⟨fun hwritable => ?_, log10_of_not_writable {} ha⟩
  have hn : 0 < a.magnitude.toNat := by omega
  obtain ⟨⟨power, m, shift⟩, hr, hpos, -, hband, hnear⟩ :=
    reduce_default hn ((writable_iff ha).1 hwritable) a.places
  refine ⟨⟨(mantissaLog m + shift * (pow10 40 : Nat)).tdiv power, 40⟩, ?_, ?_⟩
  · rw [log10, if_neg (by omega), hr]
    rfl
  · rw [value_eq_scaled ha.le]
    have hcast : ((value ⟨(mantissaLog m + shift * (pow10 40 : Nat)).tdiv power, 40⟩ : ℚ) : ℝ) =
        (((mantissaLog m + shift * (pow10 40 : Nat)).tdiv power : Int) : ℝ) / 10 ^ 40 := by
      rw [value]
      push_cast
      rfl
    rw [hcast]
    exact quotient_near hpos hband hnear

/-- The logarithm of 0.7, at the lower edge of the band, where the series converges most slowly. -/
theorem log10_accurate_edge :
    let _ : DigitLimit := .standard
    0 < (⟨7, 1⟩ : Decimal).magnitude ∧
      ∃ r, log10 {} ⟨7, 1⟩ = .ok r ∧ |(r.value : ℝ) - Real.logb 10 (value ⟨7, 1⟩)| < 1 / 10 ^ 33 := by
  intro limit
  have hwritable : (⟨7, 1⟩ : Decimal).Writable := by decide
  exact ⟨by norm_num, (log10_accurate ⟨7, 1⟩ (by norm_num)).1 hwritable⟩

end Reckoner.Decimal
