import Reckoner.Proofs.Logarithm.Sign

/-!
# Logarithms and decades

The reduction sees a number's mantissa and never its decade, which it only carries along: a number `k`
decades up takes the same steps with `k` more decades for each power counted so far
(`reduceFrom_moved`). So the dividends of the last divisions differ by `k` decades times the divisor
(`numerator_moved`), and the quotients by `k` decades, unless they are cut off in opposite directions.
Main theorem `log10_decade`.
-/
namespace Reckoner.Decimal

/-! ## Mantissas -/

theorem scaled_sub (n : Nat) (places k : Int) : scaled n (places - k) = scaled n places * 10 ^ k := by
  rw [scaled, scaled, mul_assoc, ← zpow_add₀ (by norm_num)]
  congr 2
  ring

theorem decade_sub (n : Nat) (places k : Int) : decade n (places - k) = decade n places + k := by
  rw [decade_eq, decade_eq]
  ring

/-- Decades more leave the mantissa as it is. -/
theorem mantissa_sub (n : Nat) (places k : Int) (digits : Nat) :
    mantissa n (places - k) digits = ((mantissa n places digits).1, (mantissa n places digits).2 + k) := by
  have hexp : (digits : Int) - (places - k) - (decade n places + k) = digits - places - decade n places := by
    ring
  simp only [mantissa, decade_sub, hexp]

theorem mantissa_mul_zpow {n n' : Nat} {places places' k : Int} (hn : 0 < n) (hn' : 0 < n')
    (h : scaled n' places' = scaled n places * 10 ^ k) (digits : Nat) :
    mantissa n' places' digits = ((mantissa n places digits).1, (mantissa n places digits).2 + k) := by
  rw [← mantissa_sub]
  exact mantissa_congr hn' hn (h.trans (scaled_sub n places k).symm) digits

/-! ## The reduction -/

/-- The same power of a number `k` decades up. -/
def Reduction.moved (k : Int) (r : Reduction) : Reduction :=
  ⟨r.power, r.mantissa, r.shift + r.power * k⟩

theorem Reduction.numerator_moved (k : Int) (r : Reduction) :
    (r.moved k).numerator = r.numerator + r.power * (k * (pow10 40 : Nat)) := by
  simp only [numerator, moved]
  ring

section

variable [DigitLimit]

theorem Reduction.next_moved (digits base : Nat) (baseShift k : Int) (r : Reduction) :
    (r.moved k).next digits base (baseShift + k) = (r.next digits base baseShift).map (Reduction.moved k) := by
  have hmantissa : (r.moved k).mantissa = r.mantissa := rfl
  rw [next, next, hmantissa]
  cases normalize (r.mantissa * base) (2 * digits) digits with
  | error e => rfl
  | ok split =>
    obtain ⟨m, extra⟩ := split
    have hmoved : (⟨r.power + 1, m, (r.moved k).shift + (baseShift + k + extra)⟩ : Reduction) =
        Reduction.moved k ⟨r.power + 1, m, r.shift + (baseShift + extra)⟩ := by
      simp only [moved, Reduction.mk.injEq, true_and]
      push_cast
      ring
    exact congrArg Except.ok hmoved

/-- The search stops at the same power. -/
theorem reduceFrom_moved (digits base : Nat) (baseShift k : Int) (count : Nat) (r : Reduction) :
    reduceFrom digits base (baseShift + k) count (r.moved k) =
      (reduceFrom digits base baseShift count r).map (Reduction.moved k) := by
  induction count generalizing r with
  | zero => rfl
  | succ count ih =>
    have hband : (r.moved k).mantissa = r.mantissa := rfl
    rw [reduceFrom, reduceFrom, hband, Reduction.next_moved]
    split
    · rfl
    · cases r.next digits base baseShift with
      | error e => rfl
      | ok next => exact ih next

theorem reduce_moved (s : Settings) {n n' places places' : Nat} {k : Int} (hn : 0 < n) (hn' : 0 < n')
    (hw : DigitLimit.Allows (digitCount n)) (hw' : DigitLimit.Allows (digitCount n'))
    (h : scaled n' places' = scaled n places * 10 ^ k) :
    reduce s n' places' = (reduce s n places).map (Reduction.moved k) := by
  have hfirst (m : Nat) (shift : Int) : (⟨1, m, shift + k⟩ : Reduction) = Reduction.moved k ⟨1, m, shift⟩ := by
    simp [Reduction.moved]
  rw [reduce, reduce, normalize_eq, normalize_eq, if_pos hw, if_pos hw', mantissa_mul_zpow hn hn' h]
  simp only [Except.mapError, bind, Except.bind, hfirst, reduceFrom_moved]

end

/-! ## The last division -/

variable {x y p : Int}

theorem tdiv_add_mul_of_nonneg (hp : 0 < p) (hx : 0 ≤ x) (h : 0 ≤ x + p * y) :
    (x + p * y).tdiv p = x.tdiv p + y := by
  rw [Int.tdiv_eq_ediv_of_nonneg h, Int.tdiv_eq_ediv_of_nonneg hx, Int.add_mul_ediv_left _ _ hp.ne']

theorem tdiv_add_mul_of_nonpos (hp : 0 < p) (hx : x ≤ 0) (h : x + p * y ≤ 0) :
    (x + p * y).tdiv p = x.tdiv p + y := by
  have hneg : -x + p * -y = -(x + p * y) := by ring
  have hquotient := tdiv_add_mul_of_nonneg (x := -x) (y := -y) hp (by omega) (by omega)
  rw [hneg, Int.neg_tdiv, Int.neg_tdiv] at hquotient
  omega

/-- A quotient cut off toward zero is the one rounded down or the next one up. -/
theorem ediv_le_tdiv_le (hp : 0 < p) (x : Int) : x / p ≤ x.tdiv p ∧ x.tdiv p ≤ x / p + 1 := by
  rw [Int.tdiv_eq_ediv, Int.sign_eq_one_of_pos hp]
  split <;> omega

/-- Cut off in opposite directions, two quotients are one unit further from or closer to each other. -/
theorem abs_tdiv_add_mul_le (hp : 0 < p) (x y : Int) : |(x + p * y).tdiv p - (x.tdiv p + y)| ≤ 1 := by
  obtain ⟨hlow, hhigh⟩ := ediv_le_tdiv_le hp x
  obtain ⟨hlow', hhigh'⟩ := ediv_le_tdiv_le hp (x + p * y)
  rw [Int.add_mul_ediv_left _ _ hp.ne'] at hlow' hhigh'
  rw [abs_le]
  constructor <;> omega

/-! ## The decade law -/

variable {a b : Decimal}

theorem add_integer (m k : Int) : (⟨m, 40⟩ : Decimal).add ⟨k, 0⟩ = ⟨m + k * (pow10 40 : Nat), 40⟩ := by
  have hzero : m * (pow10 0 : Nat) = m := mul_one m
  simp only [add, commonPlaces, magnitudeAt, Nat.max_zero, Nat.sub_self, Nat.sub_zero, hzero]

theorem value_sub_add (m m' k : Int) :
    (⟨m', 40⟩ : Decimal).value - ((⟨m, 40⟩ : Decimal).value + k) =
      ((m' - (m + k * (pow10 40 : Nat)) : Int) : ℚ) / 10 ^ 40 := by
  simp only [value]
  push_cast
  rw [cast_pow10]
  field_simp

section

variable [DigitLimit]

theorem log10_mul_zpow {k : Int} (ha : 0 < a.value) (h : b.value = a.value * 10 ^ k) (hwa : a.Writable)
    (hwb : b.Writable) :
    ∃ r r', log10 {} a = .ok r ∧ log10 {} b = .ok r' ∧ |r'.value - (r.value + k)| ≤ 1 / 10 ^ 40 ∧
      (1 ≤ a.value ∧ 1 ≤ b.value ∨ a.value ≤ 1 ∧ b.value ≤ 1 → r' = r.add ⟨k, 0⟩) := by
  have hb : 0 < b.value := h ▸ by positivity
  have hma := (magnitude_pos_iff a).2 ha
  have hmb := (magnitude_pos_iff b).2 hb
  obtain ⟨r, hr, hpower, hlog, hnonneg, hnonpos⟩ := exists_reduction ha hwa
  obtain ⟨r', hr', -, hlog', hnonneg', hnonpos'⟩ := exists_reduction hb hwb
  have hscaled : scaled b.magnitude.toNat b.places = scaled a.magnitude.toNat a.places * 10 ^ k := by
    rw [← value_eq_scaled hma.le, ← value_eq_scaled hmb.le, h]
  have hna : 0 < a.magnitude.toNat := by omega
  have hnb : 0 < b.magnitude.toNat := by omega
  rw [reduce_moved {} hna hnb ((writable_iff hma).1 hwa) ((writable_iff hmb).1 hwb) hscaled, hr] at hr'
  obtain rfl := Except.ok.inj hr'
  have hsame : (r.moved k).power = r.power := rfl
  rw [hsame] at hlog'
  rw [Reduction.numerator_moved] at hlog' hnonneg' hnonpos'
  refine ⟨_, _, hlog, hlog', ?_, ?_⟩
  · have hle := abs_tdiv_add_mul_le hpower r.numerator (k * (pow10 40 : Nat))
    rw [value_sub_add, abs_div, abs_of_pos (show (0 : ℚ) < 10 ^ 40 by positivity)]
    gcongr
    exact_mod_cast hle
  · rw [add_integer]
    rintro (⟨ha1, hb1⟩ | ⟨ha1, hb1⟩)
    · rw [tdiv_add_mul_of_nonneg hpower (hnonneg ha1) (hnonneg' hb1)]
    · rw [tdiv_add_mul_of_nonpos hpower (hnonpos ha1) (hnonpos' hb1)]

/-- One is at the same time from one on and up to one, so that its logarithm has both signs. -/
theorem log10_of_one (ha : a.value = 1) (hw : a.Writable) : log10 {} a = .ok ⟨0, 40⟩ := by
  obtain ⟨r, -, -, hlog, hnonneg, hnonpos⟩ := exists_reduction (a := a) (by linarith) hw
  have hzero : r.numerator = 0 := le_antisymm (hnonpos ha.le) (hnonneg ha.ge)
  rw [hlog, hzero, Int.zero_tdiv]

theorem log10_of_zpow {k : Int} (ha : a.value = 10 ^ k) (hw : a.Writable) :
    log10 {} a = .ok ((⟨0, 40⟩ : Decimal).add ⟨k, 0⟩) := by
  have hone : (⟨1, 0⟩ : Decimal).value = 1 := by norm_num [value]
  have hwone : (⟨1, 0⟩ : Decimal).Writable := DigitLimit.allows_of_le (by decide)
  obtain ⟨r, r', hlog, hlog', -, hexact⟩ := log10_mul_zpow (a := ⟨1, 0⟩) (b := a) (k := k)
    (by rw [hone]; norm_num) (by rw [hone, ha, one_mul]) hwone hw
  obtain rfl : r = ⟨0, 40⟩ := Except.ok.inj (hlog.symm.trans (log10_of_one hone hwone))
  rw [hlog', hexact]
  rw [hone, ha]
  rcases le_total 0 k with hk | hk
  · exact .inl ⟨le_rfl, one_le_zpow₀ (by norm_num) hk⟩
  · exact .inr ⟨le_rfl, zpow_le_one_of_nonpos₀ (by norm_num) hk⟩

/-- **The decade law.** With the default settings, the logarithm of a number `k` decades up differs from
the logarithm plus `k` by at most a unit of the last place, and by nothing if neither number is below
one or neither is above. The logarithm of a power of ten, however represented, is its exponent. All this as
long as the numbers can be written in their digits: one that cannot has no logarithm. -/
theorem log10_decade (k : Int) :
    (∀ a b : Decimal, 0 < a.value → b.value = a.value * 10 ^ k → a.Writable → b.Writable →
      ∃ r r', log10 {} a = .ok r ∧ log10 {} b = .ok r' ∧ |r'.value - (r.value + k)| ≤ 1 / 10 ^ 40 ∧
        (1 ≤ a.value ∧ 1 ≤ b.value ∨ a.value ≤ 1 ∧ b.value ≤ 1 → r' = r.add ⟨k, 0⟩)) ∧
      (∀ c : Decimal, c.value = 10 ^ k → c.Writable → ∃ r, log10 {} c = .ok r ∧ r.value = k) ∧
      ∀ a : Decimal, 0 < a.value → ¬ a.Writable →
        log10 {} a = .error (.conversion (.tooLongToPrint DigitLimit.most)) := by
  refine ⟨fun a b ha h hwa hwb => log10_mul_zpow ha h hwa hwb, fun c hc hw => ⟨_, log10_of_zpow hc hw, ?_⟩,
    fun a ha => log10_of_not_writable {} ((magnitude_pos_iff a).2 ha)⟩
  rw [value_add]
  simp [value]

end

/-- 2000 is three decades above 2, on the same side of one. 0.2 is a decade below it, on the other side,
and its logarithm is cut off in the other direction. 0.010 is a power of ten. -/
theorem log10_decade_two :
    let _ : DigitLimit := .standard
    (∃ r r', log10 {} ⟨2, 0⟩ = .ok r ∧ log10 {} ⟨2000, 0⟩ = .ok r' ∧ r' = r.add ⟨3, 0⟩) ∧
      (∃ r r', log10 {} ⟨2, 0⟩ = .ok r ∧ log10 {} ⟨2, 1⟩ = .ok r' ∧
        |r'.value - (r.value + (-1 : Int))| ≤ 1 / 10 ^ 40) ∧
      ∃ r, log10 {} ⟨10, 3⟩ = .ok r ∧ r.value = (-2 : Int) := by
  intro limit
  have hw2 : (⟨2, 0⟩ : Decimal).Writable := by decide
  refine ⟨?_, ?_, (log10_decade (-2)).2.1 ⟨10, 3⟩ (by norm_num [value]) (by decide)⟩
  · obtain ⟨r, r', hlog, hlog', -, hexact⟩ :=
      (log10_decade 3).1 ⟨2, 0⟩ ⟨2000, 0⟩ (by norm_num [value]) (by norm_num [value]) hw2 (by decide)
    exact ⟨r, r', hlog, hlog', hexact (.inl (by norm_num [value]))⟩
  · obtain ⟨r, r', hlog, hlog', hnear, -⟩ :=
      (log10_decade (-1)).1 ⟨2, 0⟩ ⟨2, 1⟩ (by norm_num [value]) (by norm_num [value]) hw2 (by decide)
    exact ⟨r, r', hlog, hlog', hnear⟩

end Reckoner.Decimal
