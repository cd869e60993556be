import Mathlib.Algebra.Order.Floor.Semifield
import Mathlib.Data.Sign.Basic
import Reckoner.Proofs.Decimal.Value

/-!
# Quotients

A quotient is cut off, not rounded: it is zero or has the sign of the exact quotient, and falls short
of that by less than a unit of its last place (`IsCut`, `isCut_div`). So a quotient that needs no
further places is exact (`IsCut.eq_of_multiple`), and a sign can be moved in and out of a division
(`div_neg_left`, `div_neg_right`); all this is put together in `div_truncates`. Two cuts of one number
differ by less than a unit of the coarser place (`IsCut.abs_sub_lt`). The divisor counts by its value
only (`div_congr_right`).
-/
namespace Reckoner.Decimal

/-- The second number is what is left of the first when the digits after so many places are cut
off. -/
structure IsCut (places : Nat) (x y : ℚ) : Prop where
  sign : 0 ≤ x * y
  abs_le : |y| ≤ |x|
  lt : |x| - |y| < 1 / 10 ^ places

namespace IsCut

variable {p q : Nat} {x y z : ℚ}

theorem neg (h : IsCut p x y) : IsCut p (-x) (-y) := by
  refine ⟨?_, ?_, ?_⟩
  · rw [neg_mul_neg]
    exact h.sign
  · rw [abs_neg, abs_neg]
    exact h.abs_le
  · rw [abs_neg, abs_neg]
    exact h.lt

theorem nonneg (h : IsCut p x y) (hx : 0 ≤ x) : 0 ≤ y := by
  rcases hx.eq_or_lt with rfl | hpos
  · have hle := h.abs_le
    rw [abs_zero, abs_nonpos_iff] at hle
    exact hle.ge
  · exact nonneg_of_mul_nonneg_right h.sign hpos

/-- What is left is zero or has the sign of the number. -/
theorem sign_eq (h : IsCut p x y) : y = 0 ∨ SignType.sign y = SignType.sign x := by
  by_cases hy : y = 0
  · exact .inl hy
  · have hx : x ≠ 0 := by
      rintro rfl
      exact hy (abs_nonpos_iff.1 (abs_zero (α := ℚ) ▸ h.abs_le))
    have hpos : 0 < x * y := h.sign.lt_of_ne (mul_ne_zero hx hy).symm
    rcases pos_and_pos_or_neg_and_neg_of_mul_pos hpos with ⟨hx, hy⟩ | ⟨hx, hy⟩
    · exact .inr (by rw [sign_pos hx, sign_pos hy])
    · exact .inr (by rw [sign_neg hx, sign_neg hy])

/-- Nothing is cut off a number that has no further places. -/
theorem eq_of_multiple {m n : Int} (h : IsCut p (m / 10 ^ p) (n / 10 ^ p)) : n = m := by
  have hpow : (0 : ℚ) < 10 ^ p := by positivity
  obtain ⟨hsign, hle, hlt⟩ := h
  rw [abs_div, abs_div, abs_of_pos hpow] at hle hlt
  rw [div_le_div_iff_of_pos_right hpow] at hle
  rw [← sub_div, div_lt_div_iff_of_pos_right hpow] at hlt
  have hsame : |n| = |m| := by
    have hle' : |n| ≤ |m| := by exact_mod_cast hle
    have hlt' : |m| - |n| < 1 := by exact_mod_cast hlt
    omega
  have hnonneg : 0 ≤ m * n := by
    rw [div_mul_div_comm, le_div_iff₀ (by positivity), zero_mul] at hsign
    exact_mod_cast hsign
  rcases abs_eq_abs.1 hsame with heq | hopposite
  · exact heq
  · -- opposite numbers have a nonnegative product only at zero
    have hzero : m = 0 := by nlinarith
    rw [hopposite, hzero, neg_zero]

/-- Cutting off commutes with moving the decimal mark. -/
theorem of_scaled (h : IsCut 0 (x * 10 ^ p) (y * 10 ^ p)) : IsCut p x y := by
  have hpow : (0 : ℚ) < 10 ^ p := by positivity
  obtain ⟨hsign, hle, hlt⟩ := h
  rw [abs_mul, abs_mul, abs_of_pos hpow] at hle hlt
  refine ⟨?_, le_of_mul_le_mul_right hle hpow, ?_⟩
  · rw [mul_mul_mul_comm] at hsign
    exact nonneg_of_mul_nonneg_left hsign (by positivity)
  · rw [lt_div_iff₀ hpow, sub_mul]
    simpa using hlt

theorem abs_sub_lt_of_nonneg (hx : 0 ≤ x) (hy : IsCut p x y) (hz : IsCut q x z) :
    |y - z| < 1 / 10 ^ min p q := by
  have coarse {k : Nat} (hk : min p q ≤ k) : (1 : ℚ) / 10 ^ k ≤ 1 / 10 ^ min p q :=
    one_div_le_one_div_of_le (by positivity) (pow_le_pow_right₀ (by norm_num) hk)
  have hp := coarse (Nat.min_le_left p q)
  have hq := coarse (Nat.min_le_right p q)
  have hyle := hy.abs_le
  have hylt := hy.lt
  have hzle := hz.abs_le
  have hzlt := hz.lt
  rw [abs_of_nonneg hx, abs_of_nonneg (hy.nonneg hx)] at hyle hylt
  rw [abs_of_nonneg hx, abs_of_nonneg (hz.nonneg hx)] at hzle hzlt
  rw [abs_lt]
  constructor <;> linarith

/-- Two cuts of a number agree but for a unit of the coarser place. -/
theorem abs_sub_lt (hy : IsCut p x y) (hz : IsCut q x z) : |y - z| < 1 / 10 ^ min p q := by
  rcases le_total 0 x with hx | hx
  · exact abs_sub_lt_of_nonneg hx hy hz
  · have h := abs_sub_lt_of_nonneg (neg_nonneg.2 hx) hy.neg hz.neg
    rwa [neg_sub_neg, abs_sub_comm] at h

end IsCut

/-! ## Integer division -/

theorem isCut_natDiv (n d : Nat) : IsCut 0 (n / d) ((n / d : Nat) : ℚ) := by
  have hle : ((n / d : Nat) : ℚ) ≤ n / d := by
    rw [← Nat.floor_div_eq_div (K := ℚ)]
    exact Nat.floor_le (by positivity)
  have hlt : (n / d : ℚ) < (n / d : Nat) + 1 := by
    rw [← Nat.floor_div_eq_div (K := ℚ)]
    exact Nat.lt_floor_add_one _
  have habs : |(n / d : ℚ)| = n / d := abs_of_nonneg (by positivity)
  refine ⟨by positivity, ?_, ?_⟩
  · rwa [Nat.abs_cast, habs]
  · rw [Nat.abs_cast, habs]
    linarith

theorem isCut_tdiv (n d : Int) : IsCut 0 (n / d) (n.tdiv d : Int) := by
  obtain ⟨k, hn⟩ := n.eq_nat_or_neg
  obtain ⟨j, hd⟩ := d.eq_nat_or_neg
  have h : IsCut 0 (k / j) (((k : Int).tdiv j : Int) : ℚ) := by
    rw [Int.tdiv_eq_ediv_of_nonneg (Int.natCast_nonneg k), ← Int.natCast_ediv, Int.cast_natCast]
    exact isCut_natDiv k j
  rcases hn with rfl | rfl <;> rcases hd with rfl | rfl
  · simpa using h
  · simpa [Int.tdiv_neg, div_neg] using h.neg
  · simpa [Int.neg_tdiv, neg_div] using h.neg
  · simpa [Int.tdiv_neg, Int.neg_tdiv, neg_div_neg_eq] using h

/-! ## Division of decimals -/

/-- The quotient is the exact one, cut off `extraDigits` places after the dividend's own. -/
theorem isCut_div (s : Settings) (a : Decimal) {b : Decimal} (hb : b.magnitude ≠ 0) :
    ∃ r, div s a b = .ok r ∧ r.places = a.places + s.extraDigits ∧
      IsCut (a.places + s.extraDigits) (a.value / b.value) r.value := by
  refine ⟨_, if_neg hb, rfl, .of_scaled ?_⟩
  have hcut := isCut_tdiv (a.magnitude * pow10 (s.extraDigits + b.places)) b.magnitude
  have hscaled : a.value / b.value * 10 ^ (a.places + s.extraDigits) =
      ((a.magnitude * pow10 (s.extraDigits + b.places) : Int) : ℚ) / b.magnitude := by
    unfold value
    push_cast
    rw [cast_pow10, pow_add, pow_add]
    field_simp
  have hquotient (m : Int) (p : Nat) : value ⟨m, p⟩ * 10 ^ p = m := by
    unfold value
    field_simp
  rw [hscaled, hquotient]
  exact hcut

/-- Representations of one number, each written with the places of the other. -/
theorem magnitude_mul_eq {a b : Decimal} (h : a.value = b.value) :
    a.magnitude * pow10 b.places = b.magnitude * pow10 a.places := by
  have hcross : (a.magnitude : ℚ) * 10 ^ b.places = b.magnitude * 10 ^ a.places := by
    rwa [value, value, div_eq_div_iff (by positivity) (by positivity)] at h
  rw [← cast_pow10, ← cast_pow10] at hcross
  exact_mod_cast hcross

theorem magnitude_eq_zero_iff (a : Decimal) : a.magnitude = 0 ↔ a.value = 0 := by
  have hpow : (10 : ℚ) ^ a.places ≠ 0 := by positivity
  simp [value, hpow]

/-- Representations of one divisor give one and the same quotient. -/
theorem div_congr_right (s : Settings) (a : Decimal) {b b' : Decimal} (h : b.value = b'.value) :
    div s a b = div s a b' := by
  by_cases hb : b.magnitude = 0
  · have hb' : b'.magnitude = 0 := by rwa [magnitude_eq_zero_iff, ← h, ← magnitude_eq_zero_iff]
    rw [div, div, if_pos hb, if_pos hb']
  · have hb' : b'.magnitude ≠ 0 := by rwa [ne_eq, magnitude_eq_zero_iff, ← h, ← magnitude_eq_zero_iff]
    have hpos (k : Nat) : (0 : Int) < pow10 k := by exact_mod_cast pow10_pos k
    have hsplit (k : Nat) : (pow10 (s.extraDigits + k) : Int) = pow10 s.extraDigits * pow10 k := by
      exact_mod_cast Nat.pow_add 10 s.extraDigits k
    have hdividend : a.magnitude * pow10 (s.extraDigits + b.places) * pow10 b'.places =
        a.magnitude * pow10 (s.extraDigits + b'.places) * pow10 b.places := by
      rw [hsplit, hsplit]
      ring
    have hquotient : (a.magnitude * pow10 (s.extraDigits + b.places)).tdiv b.magnitude =
        (a.magnitude * pow10 (s.extraDigits + b'.places)).tdiv b'.magnitude := by
      rw [← Int.mul_tdiv_mul_of_pos_left _ _ (hpos b'.places), hdividend, magnitude_mul_eq h,
        Int.mul_tdiv_mul_of_pos_left _ _ (hpos b.places)]
    simp only [div, if_neg hb, if_neg hb', hquotient]

/-! ## Exact quotients and signs -/

/-- A quotient that the places of the result are enough for is exact. -/
theorem div_exact {s : Settings} {a b r : Decimal} (hb : b.magnitude ≠ 0) (hr : div s a b = .ok r)
    {m : Int} (hm : a.value / b.value = m / 10 ^ (a.places + s.extraDigits)) :
    r.value = a.value / b.value := by
  obtain ⟨r', hr', hplaces, hcut⟩ := isCut_div s a hb
  obtain rfl : r' = r := Except.ok.inj (hr'.symm.trans hr)
  have hvalue : r'.value = r'.magnitude / 10 ^ (a.places + s.extraDigits) := by rw [value, hplaces]
  rw [hvalue, hm] at hcut ⊢
  rw [hcut.eq_of_multiple]

/-- Dividing undoes a multiplication. -/
theorem exists_div_mul (s : Settings) (a : Decimal) {b : Decimal} (hb : b.magnitude ≠ 0) :
    ∃ q, div s (a.mul b) b = .ok q ∧ q.cmp a = .eq := by
  have hb0 : b.value ≠ 0 := mt (magnitude_eq_zero_iff b).2 hb
  have hquotient : (a.mul b).value / b.value = a.value := by
    rw [value_mul, mul_div_cancel_right₀ _ hb0]
  have hfits : (a.mul b).value / b.value =
      (a.magnitude * pow10 (b.places + s.extraDigits) : Int) / 10 ^ ((a.mul b).places + s.extraDigits) := by
    have hplaces : (a.mul b).places + s.extraDigits = a.places + (b.places + s.extraDigits) :=
      Nat.add_assoc a.places b.places s.extraDigits
    rw [hquotient, value, hplaces, pow_add]
    push_cast
    rw [cast_pow10, mul_div_mul_right _ _ (by positivity)]
  obtain ⟨q, hq, -⟩ := isCut_div s (a.mul b) hb
  exact ⟨q, hq, by rw [cmp_eq_iff, div_exact hb hq hfits, hquotient]⟩

theorem div_neg_left {s : Settings} {a b r : Decimal} (hr : div s a b = .ok r) :
    div s a.neg b = .ok r.neg := by
  unfold div at hr ⊢
  split at hr
  · cases hr
  · cases hr
    simp only [neg, if_neg, *, not_false_eq_true, neg_mul, Int.neg_tdiv]

theorem div_neg_right {s : Settings} {a b r : Decimal} (hr : div s a b = .ok r) :
    div s a b.neg = .ok r.neg := by
  unfold div at hr ⊢
  split at hr
  · cases hr
  · cases hr
    simp only [neg, neg_eq_zero, if_neg, *, not_false_eq_true, Int.tdiv_neg]

/-- **Division cuts off toward zero.** A zero divisor is refused. Otherwise the quotient has so many
places more than the dividend, is zero or has the sign of the exact quotient, and falls short of that by
less than a unit of its last place. So it is exact whenever the exact quotient needs no further places, as
a product does that is divided by one of its factors, and the sign of either operand is the quotient's. -/
theorem div_truncates (s : Settings) (a b : Decimal) :
    (b.magnitude = 0 → div s a b = .error .divisionByZero) ∧
    (b.magnitude ≠ 0 →
      (∃ r, div s a b = .ok r ∧ r.places = a.places + s.extraDigits ∧
        (r.value = 0 ∨ SignType.sign r.value = SignType.sign (a.value / b.value)) ∧
        0 ≤ |a.value / b.value| - |r.value| ∧
        |a.value / b.value| - |r.value| < 1 / 10 ^ (a.places + s.extraDigits) ∧
        ((∃ m : Int, a.value / b.value = m / 10 ^ (a.places + s.extraDigits)) →
          r.value = a.value / b.value) ∧
        div s a.neg b = .ok r.neg ∧ div s a b.neg = .ok r.neg) ∧
      ∃ q, div s (a.mul b) b = .ok q ∧ q.cmp a = .eq) := by
  refine ⟨fun hb => if_pos hb, fun hb => ⟨?_, exists_div_mul s a hb⟩⟩
  obtain ⟨r, hr, hplaces, hcut⟩ := isCut_div s a hb
  refine ⟨r, hr, hplaces, hcut.sign_eq, sub_nonneg.2 hcut.abs_le, hcut.lt, ?_, div_neg_left hr,
    div_neg_right hr⟩
  rintro ⟨m, hm⟩
  exact div_exact hb hr hm

/-- Minus two thirds and, with one sign changed, two thirds, cut off after two places. -/
theorem div_truncates_thirds :
    let s : Settings := { extraDigits := 2 }
    let a : Decimal := ⟨-2, 0⟩
    let b : Decimal := ⟨300, 2⟩
    b.magnitude ≠ 0 ∧ div s a b = .ok ⟨-66, 2⟩ ∧ |a.value / b.value| - |value ⟨-66, 2⟩| < 1 / 10 ^ 2 ∧
      div s a.neg b = .ok ⟨66, 2⟩ ∧ div s a b.neg = .ok ⟨66, 2⟩ ∧
      ∃ q, div s (a.mul b) b = .ok q ∧ q.cmp a = .eq := by
  intro s a b
  have hb : b.magnitude ≠ 0 := by decide
  have hdiv : div s a b = .ok ⟨-66, 2⟩ := by decide
  obtain ⟨⟨r, hr, -, -, -, hlt, -, hleft, hright⟩, hmul⟩ := (div_truncates s a b).2 hb
  obtain rfl : r = ⟨-66, 2⟩ := Except.ok.inj (hr.symm.trans hdiv)
  exact ⟨hb, hdiv, hlt, hleft, hright, hmul⟩

end Reckoner.Decimal
