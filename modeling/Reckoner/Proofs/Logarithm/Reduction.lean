import Mathlib.Analysis.SpecialFunctions.Log.Base
import Mathlib.Analysis.Complex.ExponentialBounds
import Mathlib.NumberTheory.DiophantineApproximation.Basic
import Reckoner.Proofs.Logarithm.Mantissa

/-!
# Powers in the band

Each power of the argument is kept as a mantissa and a decade. What cutting off does to it is seen
in logarithms: they fall short of a multiple of the argument's logarithm by one unit of the last
digit for each cut (`Near`). Some multiple up to the eighth comes within 1/9 of an integer, by the
approximation theorem of Dirichlet, and then the mantissa of that power lies in the band
(`exists_inBand`). So the search for a power never fails (`reduce_eq_ok`), whatever the number; the only
number without a logarithm is one that has too many digits to be written.
-/
namespace Reckoner.Decimal

/-! ## Logarithms of mantissas -/

/-- The decimal logarithm of the number that a mantissa and its decade stand for. -/
noncomputable def logOf (digits m : Nat) (shift : Int) : ℝ := Real.logb 10 (m / 10 ^ digits) + shift

theorem two_lt_log_ten : 2 < Real.log 10 := by
  have h8 : Real.log 8 = 3 * Real.log 2 := by
    rw [show (8 : ℝ) = 2 ^ 3 by norm_num, Real.log_pow]
    norm_num
  have hlt : Real.log 8 < Real.log 10 := Real.log_lt_log (by norm_num) (by norm_num)
  have := Real.log_two_gt_d9
  linarith

theorem log_ten_pos : 0 < Real.log 10 := lt_trans (by norm_num) two_lt_log_ten

theorem logb_mul_zpow {x : ℝ} (hx : 0 < x) (k : Int) :
    Real.logb 10 (x * 10 ^ k) = Real.logb 10 x + k := by
  rw [Real.logb_mul hx.ne' (by positivity)]
  congr 1
  rw [Real.logb, Real.log_zpow, mul_div_assoc, div_self log_ten_pos.ne', mul_one]

theorem logOf_eq {m : Nat} (hm : 0 < m) (digits : Nat) (shift : Int) :
    logOf digits m shift = Real.logb 10 m + (shift - digits) := by
  have hm' : (0 : ℝ) < m := by exact_mod_cast hm
  have h := logb_mul_zpow hm' (-digits)
  rw [zpow_neg, zpow_natCast, ← div_eq_mul_inv] at h
  rw [logOf, h]
  push_cast
  ring

/-- Cutting a number off to an integer `m` takes at most `1 / (m · ln 10)` from its logarithm. -/
theorem logb_sub_le {y : ℝ} {m : Nat} (hm : 0 < m) (hmy : m ≤ y) (hym : y < m + 1) :
    Real.logb 10 y - Real.logb 10 m ≤ 1 / (m * Real.log 10) := by
  have hm' : (0 : ℝ) < m := by exact_mod_cast hm
  have hy : 0 < y := hm'.trans_le hmy
  have hratio : Real.log y - Real.log m ≤ 1 / m := by
    rw [← Real.log_div hy.ne' hm'.ne']
    refine (Real.log_le_sub_one_of_pos (div_pos hy hm')).trans ?_
    rw [div_sub_one hm'.ne']
    gcongr
    linarith
  rw [Real.logb, Real.logb, ← sub_div, ← div_div]
  exact div_le_div_of_nonneg_right hratio log_ten_pos.le

theorem mantissa_log {n : Nat} (hn : 0 < n) {places : Int} {digits m : Nat} {shift : Int}
    (h : mantissa n places (digits + 1) = (m, shift)) :
    logOf (digits + 1) m shift ≤ Real.logb 10 (scaled n places) ∧
      Real.logb 10 (scaled n places) ≤ logOf (digits + 1) m shift + 1 / 10 ^ (digits + 1) := by
  have hge : 7 * 10 ^ digits ≤ m := by simpa [h] using seven_le_mantissa hn places digits
  have hle := mantissa_le n places (digits + 1)
  have hlt := lt_mantissa n places (digits + 1)
  rw [h] at hle hlt
  have hpos : 0 < m := lt_of_lt_of_le (by positivity) hge
  have hm : (0 : ℝ) < m := by exact_mod_cast hpos
  have hx : (0 : ℝ) < scaled n places := by exact_mod_cast scaled_pos hn places
  generalize hy : scaled n places * 10 ^ (((digits + 1 : Nat) : Int) - shift) = y at hle hlt
  have hle' : (m : ℝ) ≤ y := by exact_mod_cast hle
  have hlt' : (y : ℝ) < m + 1 := by exact_mod_cast hlt
  have hlog : Real.logb 10 (scaled n places) = Real.logb 10 y + (shift - ((digits + 1 : Nat) : ℝ)) := by
    rw [← hy]
    push_cast
    rw [logb_mul_zpow hx]
    push_cast
    ring
  have hcut : 1 / (m * Real.log 10) ≤ 1 / 10 ^ (digits + 1) := by
    refine one_div_le_one_div_of_le (by positivity) ?_
    have hge' : (7 * 10 ^ digits : ℝ) ≤ m := by exact_mod_cast hge
    have h2 := two_lt_log_ten
    calc (10 : ℝ) ^ (digits + 1) = 10 * 10 ^ digits := pow_succ' _ _
      _ ≤ 7 * 10 ^ digits * 2 := by nlinarith [pow_pos (show (0 : ℝ) < 10 by norm_num) digits]
      _ ≤ m * Real.log 10 := by gcongr
  rw [hlog, logOf_eq hpos]
  constructor
  · have := Real.logb_le_logb_of_le (show (1 : ℝ) < 10 by norm_num) hm hle'
    linarith
  · have := logb_sub_le hpos hle' hlt'
    linarith

/-! ## Powers of the argument -/

/-- A power of a number whose decimal logarithm is `l`: the mantissa lies in [0.7, 7), and what
cutting off has taken from the logarithm is less than a unit of the last digit for each of the
normalizations and multiplications made. -/
structure Reduction.Near (digits : Nat) (l : ℝ) (r : Reduction) : Prop where
  le_mantissa : 7 * 10 ^ digits ≤ r.mantissa
  mantissa_lt : r.mantissa < 7 * 10 ^ (digits + 1)
  le_log : logOf (digits + 1) r.mantissa r.shift ≤ r.power * l
  log_le : r.power * l ≤ logOf (digits + 1) r.mantissa r.shift + (2 * r.power - 1) / 10 ^ (digits + 1)

theorem near_mantissa {n : Nat} (hn : 0 < n) {places : Int} {digits m : Nat} {shift : Int}
    (h : mantissa n places (digits + 1) = (m, shift)) :
    Reduction.Near digits (Real.logb 10 (scaled n places)) ⟨1, m, shift⟩ := by
  obtain ⟨hle, hge⟩ := mantissa_log hn h
  constructor
  · simpa [h] using seven_le_mantissa hn places digits
  · simpa [h] using mantissa_lt_seven n places (digits + 1)
  · simpa using hle
  · norm_num
    simpa using hge

theorem log_mul_mantissas (digits : Nat) {m b : Nat} (hm : 0 < m) (hb : 0 < b) (s t : Int) :
    Real.logb 10 (scaled (m * b) ((2 * digits : Nat) : Int)) + (s + t) =
      logOf digits m s + logOf digits b t := by
  have hm' : (0 : ℝ) < m := by exact_mod_cast hm
  have hb' : (0 : ℝ) < b := by exact_mod_cast hb
  have hcast : ((scaled (m * b) ((2 * digits : Nat) : Int) : ℚ) : ℝ) =
      (m * b : ℝ) * 10 ^ (-((2 * digits : Nat) : Int)) := by
    rw [scaled]
    push_cast
    rfl
  rw [hcast, logb_mul_zpow (mul_pos hm' hb'), Real.logb_mul hm'.ne' hb'.ne', logOf_eq hm, logOf_eq hb]
  push_cast
  ring

/-- The next power of the argument: what `next` gives where the product can be written. -/
def Reduction.times (digits base : Nat) (baseShift : Int) (r : Reduction) : Reduction :=
  let split := Decimal.mantissa (r.mantissa * base) (2 * digits) digits
  ⟨r.power + 1, split.1, r.shift + (baseShift + split.2)⟩

/-- One more multiplication keeps a power near, a unit for the cut and one for the new factor. -/
theorem Reduction.Near.times {digits base : Nat} {baseShift : Int} {l : ℝ} {r : Reduction}
    (hbase : Near digits l ⟨1, base, baseShift⟩) (hr : Near digits l r) :
    Near digits l (r.times (digits + 1) base baseShift) := by
  have hbpos : 0 < base := lt_of_lt_of_le (by positivity) hbase.le_mantissa
  have hmpos : 0 < r.mantissa := lt_of_lt_of_le (by positivity) hr.le_mantissa
  have hprod : 0 < r.mantissa * base := Nat.mul_pos hmpos hbpos
  obtain ⟨⟨m, extra⟩, hnorm⟩ :
      ∃ x, Decimal.mantissa (r.mantissa * base) (2 * (digits + 1) : Nat) (digits + 1) = x :=
    ⟨_, rfl⟩
  have hnext : r.times (digits + 1) base baseShift = ⟨r.power + 1, m, r.shift + (baseShift + extra)⟩ := by
    have hnorm' :
        Decimal.mantissa (r.mantissa * base) (2 * ((digits + 1 : Nat) : Int)) (digits + 1) = (m, extra) := by
      rw [← hnorm]
      push_cast
      rfl
    simp only [Reduction.times, hnorm']
  have hcut := near_mantissa hprod hnorm
  have hmul := log_mul_mantissas (digits + 1) hmpos hbpos r.shift baseShift
  have h1 := hbase.le_log
  have h2 := hbase.log_le
  have h3 := hr.le_log
  have h4 := hr.log_le
  have h5 := hcut.le_log
  have h6 := hcut.log_le
  simp only [Nat.cast_one, one_mul, mul_one] at h1 h2 h5 h6
  have hsplit : logOf (digits + 1) m (r.shift + (baseShift + extra)) =
      logOf (digits + 1) m extra + (r.shift + baseShift) := by
    unfold logOf
    push_cast
    ring
  rw [hnext]
  refine ⟨hcut.le_mantissa, hcut.mantissa_lt, ?_, ?_⟩
  · rw [hsplit]
    push_cast
    linarith
  · have hsum : ((2 * (r.power + 1 : ℝ) - 1) / 10 ^ (digits + 1)) =
        (2 * r.power - 1) / 10 ^ (digits + 1) + (2 - 1) / 10 ^ (digits + 1) +
          (2 - 1) / 10 ^ (digits + 1) := by ring
    rw [hsplit]
    push_cast
    rw [hsum]
    linarith

/-- The power that `k` multiplications lead to. -/
def Reduction.after (digits base : Nat) (baseShift : Int) (k : Nat) (r : Reduction) : Reduction :=
  (Reduction.times digits base baseShift)^[k] r

theorem Reduction.after_succ (digits base : Nat) (baseShift : Int) (k : Nat) (r : Reduction) :
    r.after digits base baseShift (k + 1) =
      (r.times digits base baseShift).after digits base baseShift k := rfl

theorem Reduction.power_after (digits base : Nat) (baseShift : Int) (k : Nat) (r : Reduction) :
    (r.after digits base baseShift k).power = r.power + k := by
  induction k generalizing r with
  | zero => rfl
  | succ k ih =>
    rw [after_succ, ih, Reduction.times]
    simp only
    omega

theorem Reduction.Near.after {digits base : Nat} {baseShift : Int} {l : ℝ}
    (hbase : Near digits l ⟨1, base, baseShift⟩) (k : Nat) {r : Reduction} (hr : Near digits l r) :
    Near digits l (r.after (digits + 1) base baseShift k) := by
  induction k generalizing r with
  | zero => exact hr
  | succ k ih => exact ih (hbase.times hr)

/-- The product of two mantissas has at most two digits more than both of them are kept with. -/
theorem Reduction.Near.digitCount_le {digits base : Nat} {baseShift : Int} {l : ℝ}
    (hbase : Near digits l ⟨1, base, baseShift⟩) {r : Reduction} (hr : Near digits l r) :
    digitCount (r.mantissa * base) ≤ 2 * digits + 4 := by
  refine Decimal.digitCount_le (Nat.succ_pos _) ?_
  calc r.mantissa * base < 7 * 10 ^ (digits + 1) * (7 * 10 ^ (digits + 1)) :=
        Nat.mul_lt_mul'' hr.mantissa_lt hbase.mantissa_lt
    _ = 49 * 10 ^ (2 * digits + 2) := by ring
    _ ≤ 10 ^ 2 * 10 ^ (2 * digits + 2) := Nat.mul_le_mul_right _ (by norm_num)
    _ = 10 ^ (2 * digits + 4) := by rw [← pow_add, add_comm]

/-! ## The search for a power in the band -/

theorem inBand_iff {digits m : Nat} :
    inBand (digits + 1) m = true ↔ 7 * 10 ^ digits ≤ m ∧ m < 13 * 10 ^ digits := by
  have hpow : pow10 (digits + 1) = 10 * 10 ^ digits := pow_succ' 10 digits
  have hlow : 7 * pow10 (digits + 1) / 10 = 7 * 10 ^ digits := by rw [hpow]; omega
  have hhigh : 13 * pow10 (digits + 1) / 10 = 13 * 10 ^ digits := by rw [hpow]; omega
  simp [inBand, hlow, hhigh]

section

variable [DigitLimit]

theorem Reduction.next_eq {digits base : Nat} {baseShift : Int} {r : Reduction}
    (h : DigitLimit.Allows (digitCount (r.mantissa * base))) :
    r.next digits base baseShift = .ok (r.times digits base baseShift) := by
  rw [Reduction.next, normalize_eq, if_pos h]
  rfl

/-- If a power within reach lies in the band, and the products on the way can be written, the search stops
there or earlier. -/
theorem reduceFrom_eq_ok {digits base : Nat} {baseShift : Int} :
    ∀ {count k : Nat} {r : Reduction}, k < count →
      (∀ j, DigitLimit.Allows (digitCount ((r.after digits base baseShift j).mantissa * base))) →
      inBand digits (r.after digits base baseShift k).mantissa →
      ∃ j ≤ k, reduceFrom digits base baseShift count r = .ok (r.after digits base baseShift j) ∧
        inBand digits (r.after digits base baseShift j).mantissa
  | 0, k, _, hk, _, _ => absurd hk (Nat.not_lt_zero k)
  | count + 1, k, r, hk, hwritten, hband => by
    by_cases h0 : inBand digits r.mantissa = true
    · exact ⟨0, Nat.zero_le k, by simp [reduceFrom, h0, Reduction.after], h0⟩
    · cases k with
      | zero => exact absurd hband h0
      | succ k =>
        have hnext : r.next digits base baseShift = .ok (r.times digits base baseShift) :=
          Reduction.next_eq (hwritten 0)
        obtain ⟨j, hj, hfound, hin⟩ :=
          reduceFrom_eq_ok (Nat.lt_of_succ_lt_succ hk) (fun j => hwritten (j + 1)) hband
        refine ⟨j + 1, Nat.succ_le_succ hj, ?_, hin⟩
        rw [reduceFrom, if_neg h0, hnext, Reduction.after_succ]
        exact hfound

end

theorem logb_lt_div {x : ℝ} (hx : 0 < x) {p q : Nat} (hq : 0 < q) (h : x ^ q < 10 ^ p) :
    Real.logb 10 x < p / q := by
  have hlt := Real.logb_lt_logb (show (1 : ℝ) < 10 by norm_num) (by positivity) h
  rw [Real.logb_pow, Real.logb_pow, Real.logb_self_eq_one (by norm_num), mul_one] at hlt
  rwa [lt_div_iff₀' (by exact_mod_cast hq)]

theorem div_lt_logb {x : ℝ} {p q : Nat} (hq : 0 < q) (h : 10 ^ p < x ^ q) :
    (p : ℝ) / q < Real.logb 10 x := by
  have hlt := Real.logb_lt_logb (show (1 : ℝ) < 10 by norm_num) (by positivity) h
  rw [Real.logb_pow, Real.logb_pow, Real.logb_self_eq_one (by norm_num), mul_one] at hlt
  rwa [div_lt_iff₀' (by exact_mod_cast hq)]

/-- A power whose logarithm is within 1/9 of an integer lies in the band: the mantissa lies in
[0.7, 7), so that the integer is its decade, and `10 ^ (1/9)` is below 1.3. -/
theorem Reduction.Near.inBand {digits : Nat} (hdigits : 3 ≤ digits) {l : ℝ} {r : Reduction}
    (hr : Near digits l r) (hpower : r.power ≤ 8) {j : Int} (hj : |r.power * l - j| ≤ 1 / 9) :
    inBand (digits + 1) r.mantissa = true := by
  have hm : (0 : ℝ) < r.mantissa := by
    exact_mod_cast (by positivity : 0 < 7 * 10 ^ digits).trans_le hr.le_mantissa
  have hscale : (0 : ℝ) < 10 ^ (digits + 1) := by positivity
  obtain ⟨x, hx⟩ : ∃ x : ℝ, (r.mantissa : ℝ) / 10 ^ (digits + 1) = x := ⟨_, rfl⟩
  have hx07 : 7 / 10 ≤ x := by
    rw [← hx, div_le_div_iff₀ (by norm_num) hscale, pow_succ]
    have h : ((7 * 10 ^ digits : Nat) : ℝ) ≤ r.mantissa := by exact_mod_cast hr.le_mantissa
    push_cast at h
    linarith
  have hx7 : x < 7 := by
    rw [← hx, div_lt_iff₀ hscale]
    exact_mod_cast hr.mantissa_lt
  have hslack : (2 * r.power - 1 : ℝ) / 10 ^ (digits + 1) ≤ 15 / 10 ^ 4 := by
    have h8 : (r.power : ℝ) ≤ 8 := by exact_mod_cast hpower
    have hpow : (10 : ℝ) ^ 4 ≤ 10 ^ (digits + 1) := pow_le_pow_right₀ (by norm_num) (by omega)
    exact div_le_div₀ (by norm_num) (by linarith) (by norm_num) hpow
  have hlow := hr.le_log
  have hhigh := hr.log_le
  rw [logOf, hx] at hlow hhigh
  obtain ⟨hj1, hj2⟩ := abs_le.1 hj
  have hlog7 : Real.logb 10 x < 7 / 8 := by
    exact_mod_cast logb_lt_div (x := x) (p := 7) (q := 8) (by linarith) (by norm_num)
      (lt_of_lt_of_le (pow_lt_pow_left₀ hx7 (by linarith) (by norm_num)) (by norm_num))
  have hlog07 : -(1 / 2) < Real.logb 10 x := by
    have hinv := logb_lt_div (x := x⁻¹) (p := 1) (q := 2) (by positivity) (by norm_num) (by
      rw [inv_pow, inv_lt_comm₀ (by positivity) (by norm_num)]
      nlinarith)
    rw [Real.logb_inv] at hinv
    norm_num at hinv ⊢
    linarith
  have hint : r.shift = j := by
    have h1 : (r.shift : ℝ) < j + 1 := by linarith
    have h2 : (j : ℝ) < r.shift + 1 := by linarith
    have h1' : r.shift < j + 1 := by exact_mod_cast h1
    have h2' : j < r.shift + 1 := by exact_mod_cast h2
    omega
  have hx13 : x < 13 / 10 := by
    by_contra hge
    have h9 := div_lt_logb (x := x) (p := 1) (q := 9) (by norm_num)
      (lt_of_lt_of_le (by norm_num) (pow_le_pow_left₀ (by norm_num) (not_lt.1 hge) 9))
    rw [hint] at hlow
    norm_num at h9
    linarith
  refine inBand_iff.2 ⟨hr.le_mantissa, ?_⟩
  rw [← hx, div_lt_iff₀ hscale, pow_succ] at hx13
  have hlt : (r.mantissa : ℝ) < ((13 * 10 ^ digits : Nat) : ℝ) := by
    push_cast
    linarith
  exact_mod_cast hlt

/-- Some power up to the eighth lies in the band. -/
theorem exists_inBand {digits base : Nat} {baseShift : Int} (hdigits : 3 ≤ digits) {l : ℝ}
    (hbase : Reduction.Near digits l ⟨1, base, baseShift⟩) :
    ∃ k < 8, inBand (digits + 1)
      (Reduction.after (digits + 1) base baseShift k ⟨1, base, baseShift⟩).mantissa = true := by
  obtain ⟨j, k, hk0, hk8, hjk⟩ := Real.exists_int_int_abs_mul_sub_le l (show 0 < 8 by norm_num)
  obtain ⟨i, rfl⟩ : ∃ i : Nat, k = i + 1 := ⟨(k - 1).toNat, by omega⟩
  refine ⟨i, by omega, ?_⟩
  have hpower := Reduction.power_after (digits + 1) base baseShift i ⟨1, base, baseShift⟩
  refine (hbase.after i hbase).inBand hdigits (j := j) ?_ ?_ <;> rw [hpower]
  · change 1 + i ≤ 8
    omega
  push_cast at hjk ⊢
  norm_num at hjk ⊢
  rwa [add_comm]

section

variable [DigitLimit]

/-- With four digits or more, and eight powers or more to look among, the search finds a power of every number
that can be written, as long as the products of two mantissas can be. -/
theorem reduce_eq_ok {s : Settings} {digits : Nat} (hs : s.logDigits = digits + 1) (hdigits : 3 ≤ digits)
    (hpowers : 8 ≤ s.maxPower) (hproducts : DigitLimit.Allows (2 * digits + 4)) {n : Nat} (hn : 0 < n)
    (hwritten : DigitLimit.Allows (digitCount n)) (places : Nat) :
    ∃ r, reduce s n places = .ok r ∧ 1 ≤ r.power ∧ r.power ≤ 8 ∧
      inBand (digits + 1) r.mantissa = true ∧ r.Near digits (Real.logb 10 (scaled n places)) := by
  obtain ⟨⟨base, shift⟩, hnorm⟩ : ∃ x, mantissa n places (digits + 1) = x := ⟨_, rfl⟩
  have hbase := near_mantissa hn hnorm
  obtain ⟨k, hk, hband⟩ := exists_inBand hdigits hbase
  have hproduct (j : Nat) := hproducts.mono (hbase.digitCount_le (hbase.after j hbase))
  obtain ⟨j, hj, hfound, hin⟩ := reduceFrom_eq_ok (lt_of_lt_of_le hk hpowers) hproduct hband
  have hpower := Reduction.power_after (digits + 1) base shift j ⟨1, base, shift⟩
  refine ⟨_, ?_, ?_, ?_, hin, hbase.after j hbase⟩
  · rw [reduce, hs, normalize_eq, if_pos hwritten, hnorm]
    exact hfound
  · rw [hpower]
    exact Nat.le_add_right 1 j
  · rw [hpower]
    change 1 + j ≤ 8
    omega

variable {n : Nat} {a : Decimal}

/-- The search with the default settings: no limit is so low that the products could not be written. -/
theorem reduce_default (hn : 0 < n) (hwritten : DigitLimit.Allows (digitCount n)) (places : Nat) :
    ∃ r, reduce {} n places = .ok r ∧ 1 ≤ r.power ∧ r.power ≤ 8 ∧
      inBand 40 r.mantissa = true ∧ r.Near 39 (Real.logb 10 (scaled n places)) :=
  reduce_eq_ok rfl (by norm_num) (by norm_num) (DigitLimit.allows_of_le (by norm_num)) hn hwritten places

theorem writable_iff (ha : 0 < a.magnitude) :
    a.Writable ↔ DigitLimit.Allows (digitCount a.magnitude.toNat) := by
  have hnat : a.magnitude.natAbs = a.magnitude.toNat := by omega
  rw [← hnat]
  exact Iff.rfl

/-- A number that cannot be written is not even split into its mantissa and its decade. -/
theorem reduce_of_not_writable (s : Settings) (ha : 0 < a.magnitude) (h : ¬ a.Writable) :
    reduce s a.magnitude.toNat a.places = .error (.conversion (.tooLongToPrint DigitLimit.most)) := by
  rw [reduce, normalize_eq, if_neg (mt (writable_iff ha).2 h)]
  rfl

theorem log10_of_not_writable (s : Settings) (ha : 0 < a.magnitude) (h : ¬ a.Writable) :
    log10 s a = .error (.conversion (.tooLongToPrint DigitLimit.most)) := by
  rw [log10, if_neg (not_le.2 ha), reduce_of_not_writable s ha h]
  rfl

/-- **The reduction never fails.** For every positive number that can be written in its digits, one of the
first eight powers has its mantissa in [0.7, 1.3), and the logarithm is found. For one that cannot, there is no
search, and that is the error. -/
theorem reduction_succeeds (a : Decimal) (ha : 0 < a.magnitude) :
    (a.Writable → ∃ r, reduce {} a.magnitude.toNat a.places = .ok r ∧ 1 ≤ r.power ∧ r.power ≤ 8 ∧
      7 * 10 ^ 40 / 10 ≤ r.mantissa ∧ r.mantissa < 13 * 10 ^ 40 / 10 ∧ ∃ l, log10 {} a = .ok l) ∧
    (¬ a.Writable →
      reduce {} a.magnitude.toNat a.places = .error (.conversion (.tooLongToPrint DigitLimit.most)) ∧
        log10 {} a = .error (.conversion (.tooLongToPrint DigitLimit.most))) := by
  refine ⟨fun hwritable => ?_, fun h => ⟨reduce_of_not_writable {} ha h, log10_of_not_writable {} ha h⟩⟩
  have hn : 0 < a.magnitude.toNat := by omega
  obtain ⟨r, hr, hpos, hle, hband, -⟩ := reduce_default hn ((writable_iff ha).1 hwritable) a.places
  obtain ⟨hlow, hhigh⟩ := inBand_iff.1 hband
  refine ⟨r, hr, hpos, hle, by omega, by omega, ?_⟩
  rw [log10, if_neg (by omega), hr]
  exact ⟨_, rfl⟩

end

/-- 1.3 is just outside the band, and the first of its powers inside is the eighth, 8.157…. -/
theorem reduction_succeeds_edge :
    let _ : DigitLimit := .standard
    0 < (⟨13, 1⟩ : Decimal).magnitude ∧ ∃ r, reduce {} 13 1 = .ok r ∧ 1 ≤ r.power ∧ r.power ≤ 8 ∧
      7 * 10 ^ 40 / 10 ≤ r.mantissa ∧ r.mantissa < 13 * 10 ^ 40 / 10 ∧
        ∃ l, log10 {} ⟨13, 1⟩ = .ok l := by
  intro limit
  have hwritable : (⟨13, 1⟩ : Decimal).Writable := by decide
  exact ⟨by norm_num, (reduction_succeeds ⟨13, 1⟩ (by norm_num)).1 hwritable⟩

end Reckoner.Decimal
