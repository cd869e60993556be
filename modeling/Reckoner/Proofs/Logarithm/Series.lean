import Mathlib.Analysis.SpecialFunctions.Log.Deriv
import Reckoner.Proofs.Decimal.Value

/-!
# The series of the logarithm

The series is computed on scaled integers, and every division cuts off. Each term is off by less
than three units of the last digit (`abs_seriesFrom_sub_le`), and what the series leaves out is
bounded by a geometric series from the next term on (`abs_log_add_sum_range_le`). So the computed
series is close to the logarithm (`abs_series_sub_le`).
-/
namespace Reckoner.Decimal

open Finset

theorem abs_tdiv_sub_le (a : Int) {b : Int} (hb : 0 < b) : |((a.tdiv b : Int) : ℝ) - a / b| ≤ 1 := by
  have hb' : (0 : ℝ) < b := by exact_mod_cast hb
  have hsplit : (a : ℝ) = b * (a.tdiv b : Int) + (a.tmod b : Int) := by
    exact_mod_cast (Int.mul_tdiv_add_tmod a b).symm
  have hlt : ((a.tmod b : Int) : ℝ) ≤ b := by exact_mod_cast (Int.tmod_lt_of_pos a hb).le
  have hgt : -(b : ℝ) ≤ (a.tmod b : Int) := by exact_mod_cast (Int.lt_tmod_of_pos a hb).le
  have hdiff : ((a.tdiv b : Int) : ℝ) - a / b = -((a.tmod b : Int) / b) := by
    rw [hsplit]
    field_simp
    ring
  rw [hdiff, abs_neg, abs_div, abs_of_pos hb', div_le_one hb']
  exact abs_le.2 ⟨hgt, hlt⟩

/-! ## Cutting off in the series -/

/-- `count` terms of the series `t / n - t x / (n + 1) + t x² / (n + 2) - …`. -/
noncomputable def exactFrom (x : ℝ) : (count : Nat) → (n t : ℝ) → ℝ
  | 0, _, _ => 0
  | count + 1, n, t => t / n + exactFrom x count (n + 1) (-(t * x))

/-- A numerator that is off by two units or less stays so: the next one is less than a third of it,
and one more unit is cut off. -/
theorem abs_next_numerator_sub_le {scale delta term : Int} {t : ℝ} (hscale : 0 < scale)
    (hdelta : |(delta : ℝ) / scale| ≤ 3 / 10) (ht : |term - t| ≤ 2) :
    |((-((term * delta).tdiv scale) : Int) : ℝ) - -(t * (delta / scale))| ≤ 2 := by
  have hcut := abs_tdiv_sub_le (term * delta) hscale
  have hshrink : |(term - t) * ((delta : ℝ) / scale)| ≤ 2 * (3 / 10) := by
    rw [abs_mul]
    exact mul_le_mul ht hdelta (abs_nonneg _) (by norm_num)
  push_cast at hcut ⊢
  rw [mul_div_assoc] at hcut
  rw [abs_le] at *
  constructor <;> linarith

theorem abs_term_sub_le {term : Int} {t : ℝ} {n : Nat} (hn : 0 < n) (ht : |term - t| ≤ 2) :
    |((term.tdiv n : Int) : ℝ) - t / n| ≤ 3 := by
  have hcut := abs_tdiv_sub_le term (show (0 : Int) < n by exact_mod_cast hn)
  have hn' : (1 : ℝ) ≤ n := by exact_mod_cast hn
  have hn0 : (0 : ℝ) < n := by linarith
  have hshrink : |(term - t) / (n : ℝ)| ≤ 2 := by
    rw [abs_div, abs_of_pos hn0, div_le_iff₀ hn0]
    linarith
  push_cast at hcut
  rw [sub_div] at hshrink
  rw [abs_le] at *
  constructor <;> linarith

theorem abs_seriesFrom_sub_le {scale delta : Int} (hscale : 0 < scale)
    (hdelta : |(delta : ℝ) / scale| ≤ 3 / 10) :
    ∀ (count : Nat) {n : Nat} {term : Int} {t : ℝ}, 0 < n → |term - t| ≤ 2 →
      |(seriesFrom scale delta count n term : ℝ) - exactFrom (delta / scale) count n t| ≤ 3 * count
  | 0, _, _, _, _, _ => by simp [seriesFrom, exactFrom]
  | count + 1, n, term, t, hn, ht => by
    have hterm := abs_term_sub_le hn ht
    have hrest := abs_seriesFrom_sub_le hscale hdelta count (Nat.succ_pos n)
      (abs_next_numerator_sub_le hscale hdelta ht)
    simp only [seriesFrom, exactFrom]
    push_cast at hrest ⊢
    rw [abs_le] at *
    constructor <;> linarith

/-! ## Leaving off the series -/

/-- The computed terms are those of the logarithm's series. -/
theorem exactFrom_eq_sum (x : ℝ) :
    ∀ (count n : Nat) (t : ℝ), exactFrom x count n t = ∑ i ∈ range count, t * (-x) ^ i / (n + i)
  | 0, _, _ => by simp [exactFrom]
  | count + 1, n, t => by
    have ih := exactFrom_eq_sum x count (n + 1) (-(t * x))
    push_cast at ih
    rw [exactFrom, ih, sum_range_succ']
    simp only [pow_zero, mul_one, Nat.cast_zero, add_zero]
    rw [add_comm]
    congr 1
    refine sum_congr rfl fun i _ => ?_
    push_cast
    rw [pow_succ]
    ring_nf

/-- What `n` terms leave out of the series for `ln (1 - y)` is less than the next term over
`1 - |y|`. -/
theorem abs_log_add_sum_range_le {y : ℝ} (hy : |y| < 1) (n : Nat) :
    |(∑ i ∈ range n, y ^ (i + 1) / (i + 1)) + Real.log (1 - y)| ≤
      |y| ^ (n + 1) / ((n + 1) * (1 - |y|)) := by
  have hsum := (hasSum_nat_add_iff' n).2 (Real.hasSum_pow_div_log_of_abs_lt_one hy)
  have hgeom := (hasSum_geometric_of_lt_one (abs_nonneg y) hy).mul_left (|y| ^ (n + 1) / (n + 1))
  have hbound : ∀ i : Nat, ‖y ^ (i + n + 1) / (((i + n : Nat) : ℝ) + 1)‖ ≤
      |y| ^ (n + 1) / (n + 1) * |y| ^ i := fun i => by
    have hden : (0 : ℝ) < ((i + n : Nat) : ℝ) + 1 := by positivity
    have hexp : n + 1 + i = i + n + 1 := by omega
    rw [Real.norm_eq_abs, abs_div, abs_pow, abs_of_pos hden, div_mul_eq_mul_div, ← pow_add, hexp]
    gcongr
    exact Nat.le_add_left n i
  have htail := tsum_of_norm_bounded hgeom hbound
  rw [hsum.tsum_eq, Real.norm_eq_abs, ← abs_neg] at htail
  calc |(∑ i ∈ range n, y ^ (i + 1) / (i + 1)) + Real.log (1 - y)|
      = |-(-Real.log (1 - y) - ∑ i ∈ range n, y ^ (i + 1) / ((i : ℝ) + 1))| := by
        congr 1
        ring
    _ ≤ |y| ^ (n + 1) / (n + 1) * (1 - |y|)⁻¹ := htail
    _ = |y| ^ (n + 1) / ((n + 1) * (1 - |y|)) := by rw [div_mul_eq_div_div, div_eq_mul_inv _ (1 - |y|)]

theorem exactFrom_one (x b : ℝ) (count : Nat) :
    exactFrom x count (1 : Nat) (b * x) = -(b * ∑ i ∈ range count, (-x) ^ (i + 1) / (i + 1)) := by
  rw [exactFrom_eq_sum, mul_sum, ← sum_neg_distrib]
  refine sum_congr rfl fun i _ => ?_
  rw [pow_succ]
  push_cast
  ring

/-- The computed series is near the logarithm: three units of the last digit for each term, and what
is left out of the series. -/
theorem abs_series_sub_le (s : Settings) {delta : Int} {x : ℝ} (hx : (delta : ℝ) / 10 ^ s.logDigits = x)
    (hx3 : |x| ≤ 3 / 10) :
    |(series s delta : ℝ) / 10 ^ s.logDigits - Real.log (1 + x)| ≤
      3 * s.logTerms / 10 ^ s.logDigits + (3 / 10) ^ (s.logTerms + 1) / ((s.logTerms + 1) * (7 / 10)) := by
  have hscale : (0 : ℝ) < 10 ^ s.logDigits := by positivity
  have hcast : (((pow10 s.logDigits : Nat) : Int) : ℝ) = 10 ^ s.logDigits := by
    rw [Int.cast_natCast, cast_pow10]
  have hpos : (0 : Int) < ((pow10 s.logDigits : Nat) : Int) := by exact_mod_cast pow10_pos _
  have hdelta : (delta : ℝ) = 10 ^ s.logDigits * x := by
    rw [← hx]
    field_simp
  have hband : |(delta : ℝ) / ((pow10 s.logDigits : Nat) : Int)| ≤ 3 / 10 := by rwa [hcast, hx]
  have hfirst : |(delta : ℝ) - delta| ≤ 2 := by simp
  have hcut := abs_seriesFrom_sub_le hpos hband s.logTerms Nat.one_pos hfirst
  rw [hcast, hx, hdelta, exactFrom_one, sub_neg_eq_add] at hcut
  have hleft := abs_log_add_sum_range_le (y := -x) (by rw [abs_neg]; linarith) s.logTerms
  rw [abs_neg, sub_neg_eq_add] at hleft
  have hleft' : |x| ^ (s.logTerms + 1) / ((s.logTerms + 1) * (1 - |x|)) ≤
      (3 / 10) ^ (s.logTerms + 1) / ((s.logTerms + 1) * (7 / 10)) := by
    gcongr
    linarith
  generalize ∑ i ∈ range s.logTerms, (-x) ^ (i + 1) / ((i : ℝ) + 1) = sum at hcut hleft
  have hsplit : (series s delta : ℝ) / 10 ^ s.logDigits - Real.log (1 + x) =
      ((series s delta : ℝ) + 10 ^ s.logDigits * sum) / 10 ^ s.logDigits - (sum + Real.log (1 + x)) := by
    field_simp
    ring
  have hscaled : |((series s delta : ℝ) + 10 ^ s.logDigits * sum) / 10 ^ s.logDigits| ≤
      3 * s.logTerms / 10 ^ s.logDigits := by
    rw [abs_div, abs_of_pos hscale]
    exact div_le_div_of_nonneg_right hcut hscale.le
  rw [hsplit]
  exact (abs_sub _ _).trans (add_le_add hscaled (hleft.trans hleft'))

end Reckoner.Decimal
