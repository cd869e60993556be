import Reckoner.Proofs.Decimal.Digits

/-!
# Rounding to significant digits

A number is rounded to the nearest multiple of the place of its last significant digit, and away from
zero where two are as near (`IsRounded`). Halves of the place on either side of a multiple show that
it is the rounded number (`isRounded_of_bounds`), the only one (`IsRounded.unique`); a number that
needs no more digits is not changed (`IsRounded.eq_of_fits`).
-/
namespace Reckoner.Decimal

/-- The place of the last one of so many significant digits, as an exponent of ten. -/
def lastPlace (digits : Nat) (x : ℚ) : Int := Int.log 10 |x| + 1 - digits

/-- The second number is the first rounded to a count of significant digits, a half away from
zero. -/
structure IsRounded (digits : Nat) (x y : ℚ) : Prop where
  multiple : ∃ m : Int, y = m * 10 ^ lastPlace digits x
  nearest : ∀ m : Int, |x - y| ≤ |x - m * 10 ^ lastPlace digits x|
  away : ∀ m : Int, |x - m * 10 ^ lastPlace digits x| = |x - y| →
    |(m : ℚ) * 10 ^ lastPlace digits x| ≤ |y|

/-- The number needs no more than so many significant digits. -/
def Fits (digits : Nat) (x : ℚ) : Prop := ∃ m k : Int, |m| < 10 ^ digits ∧ x = m * 10 ^ k

variable {digits : Nat} {x y : ℚ}

/-! ## Halves -/

theorem abs_sub_le_of_halves {t : ℚ} {m : Int} (hlo : m - 1 / 2 ≤ t) (hhi : t < m + 1 / 2) (k : Int) :
    |t - m| ≤ |t - k| := by
  have hhalf : |t - m| ≤ 1 / 2 := abs_le.2 ⟨by linarith, by linarith⟩
  by_cases hk : k = m
  · rw [hk]
  · have hone : (1 : ℚ) ≤ |(m : ℚ) - k| := by
      exact_mod_cast Int.one_le_abs (sub_ne_zero.2 (Ne.symm hk))
    have htriangle := abs_sub_le (m : ℚ) t k
    rw [abs_sub_comm (m : ℚ) t] at htriangle
    linarith

/-- No integer that is as near as `m` to a number below `m + 1 / 2` is farther from zero. -/
theorem abs_le_of_halves {t : ℚ} {m : Nat} (ht : 0 ≤ t) (hhi : t < m + 1 / 2) {k : Int}
    (h : |t - k| = |t - m|) : |k| ≤ m := by
  rcases abs_eq_abs.1 h with hk | hk
  · have heq : (k : ℚ) = ((m : Int) : ℚ) := by
      push_cast
      linarith
    rw [Int.cast_inj.1 heq, Nat.abs_cast]
  · have hsum : 2 * t = ((k + m : Int) : ℚ) := by
      push_cast
      linarith
    have hnonneg : 0 ≤ k + m := by
      have : (0 : ℚ) ≤ ((k + m : Int) : ℚ) := by linarith
      exact_mod_cast this
    have hle : k ≤ m := by
      have : ((k + m : Int) : ℚ) < ((2 * m + 1 : Int) : ℚ) := by
        push_cast at hsum ⊢
        linarith
      have : k + m < 2 * m + 1 := by exact_mod_cast this
      omega
    exact abs_le.2 ⟨by omega, hle⟩

/-! ## Rounded numbers -/

theorem isRounded_of_bounds {m : Nat} (hx : 0 ≤ x)
    (hlo : (m : ℚ) - 1 / 2 ≤ x / 10 ^ lastPlace digits x)
    (hhi : x / 10 ^ lastPlace digits x < m + 1 / 2) :
    IsRounded digits x (m * 10 ^ lastPlace digits x) := by
  generalize hu : (10 : ℚ) ^ lastPlace digits x = u at hlo hhi
  have hpos : 0 < u := hu ▸ by positivity
  have habs (q : ℚ) : |x - q * u| = |x / u - q| * u := by
    rw [← abs_of_pos hpos, ← abs_mul, abs_of_pos hpos, sub_mul, div_mul_cancel₀ x hpos.ne']
  refine ⟨⟨m, by rw [hu]; rfl⟩, fun k => ?_, fun k hk => ?_⟩
  · rw [hu, habs, habs]
    exact mul_le_mul_of_nonneg_right (abs_sub_le_of_halves (m := m) hlo hhi k) hpos.le
  · rw [hu, habs, habs] at hk
    have hnear := abs_le_of_halves (by positivity) hhi (mul_right_cancel₀ hpos.ne' hk)
    rw [hu, abs_mul, abs_mul, Nat.abs_cast]
    exact mul_le_mul_of_nonneg_right (by exact_mod_cast hnear) (abs_nonneg u)

theorem lastPlace_neg (digits : Nat) (x : ℚ) : lastPlace digits (-x) = lastPlace digits x := by
  rw [lastPlace, abs_neg, lastPlace]

theorem IsRounded.neg (h : IsRounded digits x y) : IsRounded digits (-x) (-y) := by
  have hmirror (m : Int) :
      |-x - m * 10 ^ lastPlace digits x| = |x - (-m : Int) * 10 ^ lastPlace digits x| := by
    rw [← abs_neg]
    push_cast
    ring_nf
  have hdistance : |-x - -y| = |x - y| := by rw [neg_sub_neg, abs_sub_comm]
  obtain ⟨⟨m, hm⟩, hnearest, haway⟩ := h
  refine ⟨⟨-m, ?_⟩, fun k => ?_, fun k hk => ?_⟩
  · rw [lastPlace_neg, hm]
    push_cast
    ring
  · rw [lastPlace_neg, hmirror, hdistance]
    exact hnearest (-k)
  · rw [lastPlace_neg, hmirror, hdistance] at hk
    have hle := haway (-k) hk
    rw [lastPlace_neg, abs_neg y]
    push_cast at hle
    rwa [neg_mul, abs_neg] at hle

/-- There is only one rounded number. -/
theorem IsRounded.unique {z : ℚ} (hy : IsRounded digits x y) (hz : IsRounded digits x z) : y = z := by
  have hle (u v : ℚ) (hu : IsRounded digits x u) (hv : IsRounded digits x v) : |x - u| ≤ |x - v| := by
    obtain ⟨m, rfl⟩ := hv.multiple
    exact hu.nearest m
  have hdistance : |x - y| = |x - z| := le_antisymm (hle y z hy hz) (hle z y hz hy)
  have hsize : |y| = |z| := by
    obtain ⟨m, rfl⟩ := hy.multiple
    obtain ⟨k, rfl⟩ := hz.multiple
    exact le_antisymm (hz.away m hdistance) (hy.away k hdistance.symm)
  rcases abs_eq_abs.1 hsize with h | h
  · exact h
  · -- opposite numbers are as near to zero alone, which is rounded to itself
    have hzero : |x - z| ≤ |x| := by simpa using hz.nearest 0
    rw [h, sub_neg_eq_add] at hdistance
    rcases abs_eq_abs.1 hdistance with hsum | hsum
    · linarith
    · have hx : x = 0 := by linarith
      rw [hx, zero_sub, abs_neg, abs_zero] at hzero
      have hz0 := abs_eq_zero.1 (le_antisymm hzero (abs_nonneg z))
      rw [h, hz0, neg_zero]

/-! ## Numbers with few digits -/

/-- A number with few significant digits is a multiple of the last one's place. -/
theorem Fits.multiple (h : Fits digits x) : ∃ m : Int, x = m * 10 ^ lastPlace digits x := by
  obtain ⟨m, k, hm, rfl⟩ := h
  by_cases hzero : m = 0
  · exact ⟨0, by simp [hzero]⟩
  · have hm0 : (m : ℚ) ≠ 0 := by exact_mod_cast hzero
    have hpos : (0 : ℚ) < |(m : ℚ) * 10 ^ k| := by positivity
    have hlt : |(m : ℚ) * 10 ^ k| < 10 ^ (digits + k : Int) := by
      have hcast : |(m : ℚ)| < 10 ^ digits := by exact_mod_cast hm
      rw [abs_mul, abs_of_pos (by positivity : (0 : ℚ) < 10 ^ k), zpow_add₀ (by norm_num), zpow_natCast]
      exact mul_lt_mul_of_pos_right hcast (by positivity)
    have hlog := (Int.lt_zpow_iff_log_lt (b := 10) (by decide) hpos).1 (by exact_mod_cast hlt)
    obtain ⟨j, hj⟩ : ∃ j : Nat, k = j + lastPlace digits (m * 10 ^ k) :=
      ⟨(k - lastPlace digits (m * 10 ^ k)).toNat, by unfold lastPlace; omega⟩
    refine ⟨m * 10 ^ j, ?_⟩
    push_cast
    rw [mul_assoc, ← zpow_natCast, ← zpow_add₀ (by norm_num), ← hj]

theorem Fits.isRounded (h : Fits digits x) : IsRounded digits x x := by
  refine ⟨h.multiple, fun m => ?_, fun m hm => ?_⟩
  · rw [sub_self, abs_zero]
    exact abs_nonneg _
  · rw [sub_self, abs_zero, abs_eq_zero, sub_eq_zero] at hm
    rw [← hm]

theorem isRounded_zero (digits : Nat) : IsRounded digits 0 0 := by
  have hzero : Fits digits 0 := ⟨0, 0, by simp, by simp⟩
  exact hzero.isRounded

theorem IsRounded.eq_of_fits (h : IsRounded digits x y) (hx : Fits digits x) : y = x :=
  h.unique hx.isRounded

end Reckoner.Decimal
