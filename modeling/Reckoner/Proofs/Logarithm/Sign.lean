import Reckoner.Proofs.Decimal.Interchange
import Reckoner.Proofs.Logarithm.Accuracy

/-!
# The sign of the logarithm

The error bound says nothing about the sign of a logarithm that is close to zero. It is right all the
same, before the last division already: `Reduction.numerator` is nonnegative for numbers from one on and
nonpositive for numbers up to one (`numerator_nonneg`, `numerator_nonpos`). A number in [0.7, 1.3) is
its own mantissa, and the sign is that of the first term of its series, which the further ones cannot
outweigh (`seriesFrom_bounds`, `seriesFrom_nonpos`). Any other number has decades left on its side of
one, which outweigh the series of the mantissa (`shift_pos`, `shift_neg`). Main theorem `log10_sign`.
-/
namespace Reckoner.Decimal

/-! ## The series -/

theorem seriesFrom_neg (scale delta : Int) :
    ∀ (count : Nat) (n term : Int),
      seriesFrom scale delta count n (-term) = -seriesFrom scale delta count n term
  | 0, _, _ => rfl
  | count + 1, n, term => by
    simp only [seriesFrom, neg_mul, Int.neg_tdiv, seriesFrom_neg scale delta count]
    ring

/-- For a mantissa from one on the signs of the terms alternate, and no term is larger than the one
before. -/
theorem seriesFrom_bounds {scale delta : Int} (hscale : 0 < scale) (hdelta : 0 ≤ delta)
    (hle : delta ≤ scale) :
    ∀ (count : Nat) {n term : Int}, 0 < n → 0 ≤ term →
      0 ≤ seriesFrom scale delta count n term ∧ seriesFrom scale delta count n term ≤ term.tdiv n
  | 0, n, term, hn, hterm => ⟨le_rfl, Int.tdiv_nonneg hterm hn.le⟩
  | count + 1, n, term, hn, hterm => by
    have hnext : 0 ≤ (term * delta).tdiv scale := Int.tdiv_nonneg (mul_nonneg hterm hdelta) hscale.le
    have hshrink : (term * delta).tdiv scale ≤ term :=
      calc (term * delta).tdiv scale
          ≤ (term * scale).tdiv scale := Int.tdiv_le_tdiv hscale (mul_le_mul_of_nonneg_left hle hterm)
        _ = term := Int.mul_tdiv_cancel term hscale.ne'
    have hquotient : ((term * delta).tdiv scale).tdiv (n + 1) ≤ term.tdiv n := by
      have hpos := Int.tdiv_nonneg hnext (by omega : 0 ≤ n + 1)
      have hmul := Int.mul_tdiv_self_le (k := n + 1) hnext
      exact Int.le_tdiv_of_mul_le hn (by nlinarith)
    obtain ⟨hlow, hhigh⟩ :=
      seriesFrom_bounds hscale hdelta hle count (by omega : 0 < n + 1) hnext
    rw [seriesFrom, seriesFrom_neg]
    constructor <;> omega

/-- For a mantissa up to one all terms have one sign. -/
theorem seriesFrom_nonpos {scale delta : Int} (hscale : 0 < scale) (hdelta : delta ≤ 0) :
    ∀ (count : Nat) {n term : Int}, 0 < n → term ≤ 0 → seriesFrom scale delta count n term ≤ 0
  | 0, _, _, _, _ => le_rfl
  | count + 1, n, term, hn, hterm => by
    have hfirst : term.tdiv n ≤ 0 := Int.zero_tdiv n ▸ Int.tdiv_le_tdiv hn hterm
    have hnext : 0 ≤ (term * delta).tdiv scale :=
      Int.tdiv_nonneg (mul_nonneg_of_nonpos_of_nonpos hterm hdelta) hscale.le
    have hrest := seriesFrom_nonpos hscale hdelta count (by omega : 0 < n + 1)
      (by omega : -((term * delta).tdiv scale) ≤ 0)
    rw [seriesFrom]
    omega

/-! ## Mantissas in the band -/

theorem pow10_40_pos : (0 : Int) < (pow10 40 : Nat) := by exact_mod_cast pow10_pos 40

theorem mantissaLog_nonneg {m : Nat} (hlow : pow10 40 ≤ m) (hhigh : m ≤ 2 * pow10 40) :
    0 ≤ mantissaLog m := by
  have hdelta : (0 : Int) ≤ (m : Int) - (pow10 40 : Nat) := by omega
  have hle : (m : Int) - (pow10 40 : Nat) ≤ (pow10 40 : Nat) := by omega
  have hseries : 0 ≤ series {} ((m : Int) - (pow10 40 : Nat)) :=
    (seriesFrom_bounds pow10_40_pos hdelta hle 60 one_pos hdelta).1
  exact Int.tdiv_nonneg (mul_nonneg hseries (Int.natCast_nonneg _)) pow10_40_pos.le

theorem mantissaLog_nonpos {m : Nat} (hm : m ≤ pow10 40) : mantissaLog m ≤ 0 := by
  have hdelta : (m : Int) - (pow10 40 : Nat) ≤ 0 := by omega
  have hseries : series {} ((m : Int) - (pow10 40 : Nat)) ≤ 0 :=
    seriesFrom_nonpos pow10_40_pos hdelta 60 one_pos hdelta
  have hproduct := mul_nonpos_of_nonpos_of_nonneg hseries (Int.natCast_nonneg (Settings.invLn10 {}))
  exact Int.zero_tdiv _ ▸ Int.tdiv_le_tdiv pow10_40_pos hproduct

/-- The logarithm of a mantissa in the band is less than a decade. -/
theorem abs_mantissaLog_le {m : Nat} (hm : inBand 40 m = true) : |mantissaLog m| ≤ (pow10 40 : Nat) := by
  have hlog := abs_log_one_add_le (abs_offset_le hm)
  have hnear := mantissaLog_near hm
  have hquotient : |Real.log (1 + offset m) / Real.log 10| ≤ 1 / 2 := by
    rw [abs_div, abs_of_pos log_ten_pos]
    exact (div_le_self (abs_nonneg _) (by linarith [two_lt_log_ten])).trans hlog
  generalize Real.log (1 + offset m) / Real.log 10 = y at hnear hquotient
  have hle : |(mantissaLog m : ℝ) / 10 ^ 40| ≤ 1 := by
    rw [abs_le] at *
    constructor <;> linarith
  have hscale : (0 : ℝ) < 10 ^ 40 := by positivity
  rw [abs_div, abs_of_pos hscale, div_le_one hscale, ← cast_pow10] at hle
  exact_mod_cast hle

variable {n : Nat} {places : Nat} {r : Reduction}

/-! ## The last dividend -/

/-- The dividend of the last division: the logarithm of a power of the argument. -/
def Reduction.numerator (r : Reduction) : Int := mantissaLog r.mantissa + r.shift * (pow10 40 : Nat)

/-- Whole decades outweigh the logarithm of the mantissa. -/
theorem numerator_nonneg_of_shift (hband : inBand 40 r.mantissa = true) (hshift : 0 < r.shift) :
    0 ≤ r.numerator := by
  have hlog := (abs_le.1 (abs_mantissaLog_le hband)).1
  have hscale := pow10_40_pos
  rw [Reduction.numerator]
  nlinarith

theorem numerator_nonpos_of_shift (hband : inBand 40 r.mantissa = true) (hshift : r.shift < 0) :
    r.numerator ≤ 0 := by
  have hlog := (abs_le.1 (abs_mantissaLog_le hband)).2
  have hscale := pow10_40_pos
  rw [Reduction.numerator]
  nlinarith

/-! ## Numbers in the band -/

theorem decade_eq_zero (hn : 0 < n) (hlow : 7 / 10 ≤ scaled n places) (hhigh : scaled n places < 13 / 10) :
    decade n places = 0 := by
  have hle := decade_le hn places
  have hlt := lt_decade n places
  have hupper : (10 : ℚ) ^ (decade n places - 1) < 10 ^ (0 : Int) := by
    rw [zpow_zero]
    linarith
  have hlower : (10 : ℚ) ^ (-1 : Int) < 10 ^ decade n places := by
    rw [zpow_neg_one]
    linarith
  rw [zpow_lt_zpow_iff_right₀ (by norm_num)] at hupper hlower
  omega

section

variable [DigitLimit]

theorem allows_of_reduce {s : Settings} (hr : reduce s n places = .ok r) :
    DigitLimit.Allows (digitCount n) := by
  by_contra hlong
  rw [reduce, normalize_eq, if_neg hlong] at hr
  cases hr

/-- A number in the band needs no further power. -/
theorem reduce_of_band (hn : 0 < n) (hwritten : DigitLimit.Allows (digitCount n))
    (hlow : 7 / 10 ≤ scaled n places) (hhigh : scaled n places < 13 / 10) :
    reduce {} n places = .ok ⟨1, ⌊scaled n places * 10 ^ 40⌋₊, 0⟩ := by
  have hdecade := decade_eq_zero hn hlow hhigh
  have hmantissa : (mantissa n places 40).1 = ⌊scaled n places * 10 ^ 40⌋₊ := by
    rw [mantissa_fst, hdecade]
    rfl
  have hnormal : mantissa n places 40 = (⌊scaled n places * 10 ^ 40⌋₊, 0) :=
    Prod.ext hmantissa hdecade
  have hband : inBand 40 ⌊scaled n places * 10 ^ 40⌋₊ = true := by
    refine inBand_iff.2 ⟨Nat.le_floor ?_, (Nat.floor_lt (by linarith)).2 ?_⟩
    · push_cast
      linarith
    · push_cast
      linarith
  have hfirst (count : Nat) :
      reduceFrom 40 ⌊scaled n places * 10 ^ 40⌋₊ 0 (count + 1) ⟨1, ⌊scaled n places * 10 ^ 40⌋₊, 0⟩ =
        .ok ⟨1, ⌊scaled n places * 10 ^ 40⌋₊, 0⟩ := if_pos hband
  have hsplit : normalize n places 40 = .ok (⌊scaled n places * 10 ^ 40⌋₊, 0) := by
    rw [normalize_eq, if_pos hwritten, hnormal]
  rw [reduce, hsplit]
  exact hfirst 15

/-! ## Numbers outside the band -/

theorem near_of_reduce (hn : 0 < n) (hr : reduce {} n places = .ok r) :
    1 ≤ r.power ∧ r.power ≤ 8 ∧ inBand 40 r.mantissa = true ∧
      r.Near 39 (Real.logb 10 (scaled n places)) := by
  obtain ⟨r', hr', hnear⟩ := reduce_default hn (allows_of_reduce hr) places
  obtain rfl : r' = r := Except.ok.inj (hr'.symm.trans hr)
  exact hnear

theorem Reduction.power_next {digits base : Nat} {baseShift : Int} {r' : Reduction}
    (h : r.next digits base baseShift = .ok r') : r'.power = r.power + 1 := by
  rw [next, normalize_eq] at h
  split at h
  · obtain rfl := Except.ok.inj h
    rfl
  · cases h

theorem reduceFrom_eq_self_or_lt {digits base : Nat} {baseShift : Int} :
    ∀ {count : Nat} {r r' : Reduction}, reduceFrom digits base baseShift count r = .ok r' →
      r' = r ∨ r.power < r'.power
  | 0, _, _, h => by cases h
  | count + 1, r, r', h => by
    rw [reduceFrom] at h
    split at h
    · exact .inl (Except.ok.inj h).symm
    · cases hnext : r.next digits base baseShift with
      | error e => simp [hnext, bind, Except.bind] at h
      | ok next =>
        simp only [hnext, bind, Except.bind] at h
        have hpower := Reduction.power_next hnext
        rcases reduceFrom_eq_self_or_lt h with rfl | hlt
        · exact .inr (by omega)
        · exact .inr (by omega)

theorem shift_neg (hn : 0 < n) (hx : scaled n places < 7 / 10) (hr : reduce {} n places = .ok r) :
    r.shift < 0 := by
  obtain ⟨hpower, -, -, hnear⟩ := near_of_reduce hn hr
  have hpos : (0 : ℝ) < scaled n places := by exact_mod_cast scaled_pos hn places
  have hlt : Real.logb 10 (scaled n places) < Real.logb 10 (7 / 10) :=
    Real.logb_lt_logb (by norm_num) hpos (by simpa using Rat.cast_lt (K := ℝ).2 hx)
  have hlow : Real.logb 10 (7 / 10) ≤ Real.logb 10 (r.mantissa / 10 ^ 40) := by
    refine Real.logb_le_logb_of_le (by norm_num) (by norm_num) ?_
    have hle : (7 * 10 ^ 39 : ℝ) ≤ r.mantissa := by exact_mod_cast hnear.le_mantissa
    rw [le_div_iff₀ (by positivity)]
    linarith
  have hneg : Real.logb 10 (7 / 10) < 0 := Real.logb_neg (by norm_num) (by norm_num) (by norm_num)
  have hlog := hnear.le_log
  have hpower' : (1 : ℝ) ≤ r.power := by exact_mod_cast hpower
  rw [logOf] at hlog
  have hshift : (r.shift : ℝ) < 0 := by nlinarith
  exact_mod_cast hshift

theorem reduce_eq_first_or (hr : reduce {} n places = .ok r) :
    r = ⟨1, (mantissa n places 40).1, (mantissa n places 40).2⟩ ∨ 2 ≤ r.power := by
  have hwritten := allows_of_reduce hr
  rw [reduce, normalize_eq, if_pos hwritten] at hr
  exact reduceFrom_eq_self_or_lt hr

theorem shift_pos (hn : 0 < n) (hx : 13 / 10 ≤ scaled n places) (hr : reduce {} n places = .ok r) :
    0 < r.shift := by
  obtain ⟨-, hpower8, hband, hnear⟩ := near_of_reduce hn hr
  have hm := (inBand_iff.1 hband).2
  rcases reduce_eq_first_or hr with rfl | hpower
  · -- the first power is exact but for the cut, which is too much for a comparison of logarithms
    have hlt := lt_mantissa n places 40
    have hm' : ((mantissa n places 40).1 : ℚ) + 1 ≤ 13 * 10 ^ 39 := by exact_mod_cast hm
    by_contra hshift
    have hpow : (10 : ℚ) ^ 40 ≤ 10 ^ (((40 : Nat) : Int) - (mantissa n places 40).2) := by
      rw [← zpow_natCast]
      exact zpow_le_zpow_right₀ (by norm_num) (by simp only at hshift; omega)
    have hmul := mul_le_mul hx hpow (by positivity) (scaled_nonneg n places)
    have habsurd := hmul.trans_lt (hlt.trans_le hm')
    norm_num at habsurd
  · have hlog : Real.logb 10 (13 / 10) ≤ Real.logb 10 (scaled n places) :=
      Real.logb_le_logb_of_le (by norm_num) (by norm_num) (by simpa using Rat.cast_le (K := ℝ).2 hx)
    have hlog9 := div_lt_logb (x := 13 / 10) (p := 1) (q := 9) (by norm_num) (by norm_num)
    have hhigh : Real.logb 10 (r.mantissa / 10 ^ 40) ≤ Real.logb 10 (13 / 10) := by
      have hmpos : (0 : ℝ) < r.mantissa := by
        exact_mod_cast (by positivity : 0 < 7 * 10 ^ 39).trans_le hnear.le_mantissa
      refine Real.logb_le_logb_of_le (by norm_num) (by positivity) ?_
      have hle : (r.mantissa : ℝ) ≤ 13 * 10 ^ 39 := by exact_mod_cast hm.le
      rw [div_le_iff₀ (by positivity)]
      linarith
    have hnear := hnear.log_le
    have hpower' : (2 : ℝ) ≤ r.power := by exact_mod_cast hpower
    have hpower8' : (r.power : ℝ) ≤ 8 := by exact_mod_cast hpower8
    rw [logOf] at hnear
    norm_num at hlog9 hnear
    have hshift : (0 : ℝ) < r.shift := by nlinarith
    exact_mod_cast hshift

/-! ## The sign -/

theorem log10_eq {a : Decimal} (ha : 0 < a.magnitude)
    (hr : reduce {} a.magnitude.toNat a.places = .ok r) :
    log10 {} a = .ok ⟨r.numerator.tdiv r.power, 40⟩ := by
  rw [log10, if_neg (not_le.2 ha), hr]
  rfl

/-- The logarithm of a number from one on is not negative. -/
theorem numerator_nonneg (hn : 0 < n) (hx : 1 ≤ scaled n places) (hr : reduce {} n places = .ok r) :
    0 ≤ r.numerator := by
  rcases lt_or_ge (scaled n places) (13 / 10) with hband | hlarge
  · rw [reduce_of_band hn (allows_of_reduce hr) (by linarith) hband] at hr
    obtain rfl := Except.ok.inj hr
    have hlow : pow10 40 ≤ ⌊scaled n places * 10 ^ 40⌋₊ := by
      refine Nat.le_floor ?_
      rw [cast_pow10]
      linarith
    have hhigh : ⌊scaled n places * 10 ^ 40⌋₊ ≤ 2 * pow10 40 := by
      refine Nat.floor_le_of_le ?_
      push_cast
      rw [cast_pow10]
      linarith
    simpa [Reduction.numerator] using mantissaLog_nonneg hlow hhigh
  · exact numerator_nonneg_of_shift (near_of_reduce hn hr).2.2.1 (shift_pos hn hlarge hr)

/-- The logarithm of a number up to one is not positive. -/
theorem numerator_nonpos (hn : 0 < n) (hx : scaled n places ≤ 1) (hr : reduce {} n places = .ok r) :
    r.numerator ≤ 0 := by
  rcases lt_or_ge (scaled n places) (7 / 10) with hsmall | hband
  · exact numerator_nonpos_of_shift (near_of_reduce hn hr).2.2.1 (shift_neg hn hsmall hr)
  · rw [reduce_of_band hn (allows_of_reduce hr) hband (by linarith)] at hr
    obtain rfl := Except.ok.inj hr
    have hhigh : ⌊scaled n places * 10 ^ 40⌋₊ ≤ pow10 40 := by
      refine Nat.floor_le_of_le ?_
      rw [cast_pow10]
      linarith
    simpa [Reduction.numerator] using mantissaLog_nonpos hhigh

/-- The logarithm of a positive number, with the sign of its numerator. -/
theorem exists_reduction {a : Decimal} (ha : 0 < a.value) (hw : a.Writable) :
    ∃ r, reduce {} a.magnitude.toNat a.places = .ok r ∧ 0 < (r.power : Int) ∧
      log10 {} a = .ok ⟨r.numerator.tdiv r.power, 40⟩ ∧
      (1 ≤ a.value → 0 ≤ r.numerator) ∧ (a.value ≤ 1 → r.numerator ≤ 0) := by
  have hmagnitude := (magnitude_pos_iff a).2 ha
  have hn : 0 < a.magnitude.toNat := by omega
  obtain ⟨r, hr, hpower, -⟩ := reduce_default hn ((writable_iff hmagnitude).1 hw) a.places
  rw [value_eq_scaled hmagnitude.le]
  exact ⟨r, hr, by omega, log10_eq hmagnitude hr, fun h => numerator_nonneg hn h hr,
    fun h => numerator_nonpos hn h hr⟩

/-- **The logarithm never has the wrong sign.** With the default settings, every positive number that can be
written in its digits has a logarithm, which is not negative if the number is one or more and not positive if
it is one or less, however close to one it is. One that cannot be written has none. -/
theorem log10_sign (a : Decimal) (ha : 0 < a.value) :
    (a.Writable →
      ∃ r, log10 {} a = .ok r ∧ (1 ≤ a.value → 0 ≤ r.magnitude) ∧ (a.value ≤ 1 → r.magnitude ≤ 0)) ∧
    (¬ a.Writable → log10 {} a = .error (.conversion (.tooLongToPrint DigitLimit.most))) := by
  refine ⟨fun hw => ?_, log10_of_not_writable {} ((magnitude_pos_iff a).2 ha)⟩
  obtain ⟨r, -, hpower, hlog, hnonneg, hnonpos⟩ := exists_reduction ha hw
  refine ⟨_, hlog, fun h => ?_, fun h => ?_⟩
  · exact Int.tdiv_nonneg (hnonneg h) hpower.le
  · have hle := Int.tdiv_le_tdiv hpower (hnonpos h)
    rwa [Int.zero_tdiv] at hle

end

/-- Just above one, by less than the digits that the logarithm is computed with, and below the band, where
a higher power is taken. -/
theorem log10_sign_near_one :
    let _ : DigitLimit := .standard
    (∃ r, log10 {} ⟨10 ^ 50 + 1, 50⟩ = .ok r ∧ 0 ≤ r.magnitude) ∧
      ∃ r, log10 {} ⟨6, 1⟩ = .ok r ∧ r.magnitude ≤ 0 := by
  intro limit
  obtain ⟨r, hr, hnonneg, -⟩ :=
    (log10_sign ⟨10 ^ 50 + 1, 50⟩ (by norm_num [value])).1 (by decide)
  obtain ⟨r', hr', -, hnonpos⟩ := (log10_sign ⟨6, 1⟩ (by norm_num [value])).1 (by decide)
  exact ⟨⟨r, hr, hnonneg (by norm_num [value])⟩, r', hr', hnonpos (by norm_num [value])⟩

end Reckoner.Decimal
