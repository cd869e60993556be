import Reckoner.Proofs.Decimal.Quotient
import Reckoner.Proofs.Decimal.Rendering
import Reckoner.Proofs.Logarithm.Reduction

/-!
# Representations of one number

A number has many representations, and operations work on these: on counts of digits, on the leading
digit, on places. Main theorem `equal_interchangeable`: which representation an operand has makes no
difference to what a result stands for, to an order, to a text, to a logarithm and to a divisor. Only
the dividend's places show in a quotient, since they decide where it is cut off; and a representation may
have too many digits for a text or a logarithm.
-/
namespace Reckoner.Decimal

variable {a a' b b' : Decimal}

/-! ## Exact operations -/

/-- Exact operations on equal decimals have equal results, and equal decimals have one order. -/
theorem exact_congr (ha : a.value = a'.value) (hb : b.value = b'.value) :
    (a.add b).cmp (a'.add b') = .eq ∧ (a.sub b).cmp (a'.sub b') = .eq ∧
      (a.mul b).cmp (a'.mul b') = .eq ∧ a.neg.cmp a'.neg = .eq ∧
      (a.max b).cmp (a'.max b') = .eq ∧ a.cmp b = a'.cmp b' := by
  refine ⟨?_, ?_, ?_, ?_, ?_, ?_⟩
  · rw [cmp_eq_iff, value_add, value_add, ha, hb]
  · rw [cmp_eq_iff, value_sub, value_sub, ha, hb]
  · rw [cmp_eq_iff, value_mul, value_mul, ha, hb]
  · rw [cmp_eq_iff, value_neg, value_neg, ha]
  · rw [cmp_eq_iff, value_max, value_max, ha, hb]
  · rw [cmp_eq_compare, cmp_eq_compare, ha, hb]

/-! ## Texts -/

theorem magnitude_pos_iff (a : Decimal) : 0 < a.magnitude ↔ 0 < a.value := by
  have hpow : (0 : ℚ) < 10 ^ a.places := by positivity
  rw [value, div_pos_iff_of_pos_right hpow]
  exact_mod_cast Iff.rfl

section

variable [DigitLimit]

/-- Representations of one number are written alike, if both can be or neither. -/
theorem scientific_congr (h : a.value = a'.value) (hw : a.Writable ↔ a'.Writable) (d : Nat) :
    scientific d a = scientific d a' := by
  obtain ⟨x, hshows, hx⟩ := exists_rendering d a
  obtain ⟨x', hshows', hx'⟩ := exists_rendering d a'
  have hsign : a.magnitude < 0 ↔ a'.magnitude < 0 := by rw [← value_neg_iff, ← value_neg_iff, h]
  have hrounded := hshows.rounded
  rw [h] at hrounded
  obtain rfl := hshows.unique hshows' hsign (hrounded.unique hshows'.rounded)
  have hzero : a.magnitude = 0 ↔ a'.magnitude = 0 := by
    rw [magnitude_eq_zero_iff, magnitude_eq_zero_iff, h]
  have hprintable : x.Printable a ↔ x.Printable a' := or_congr hzero (and_congr_left' hw)
  rw [hx, hx']
  exact if_congr hprintable rfl rfl

theorem scientific?_congr (h : a.value = a'.value) (hw : a.Writable ↔ a'.Writable) (d : Int) :
    scientific? d a = scientific? d a' := by
  rw [scientific?, scientific?, scientific_congr h hw]

theorem scientific?_of_not_writable (ha : a.magnitude ≠ 0) (hw : ¬ a.Writable) (d : Nat) :
    scientific? d a = .error (.conversion (.tooLongToPrint DigitLimit.most)) := by
  obtain ⟨x, -, hx⟩ := exists_rendering d a
  have hprintable : ¬ x.Printable a := by
    rintro (hzero | ⟨hwritable, -⟩)
    · exact ha hzero
    · exact hw hwritable
  rw [scientific?, if_neg (by omega), Int.toNat_natCast, hx, if_neg hprintable]
  rfl

/-! ## Logarithms -/

/-- Representations of one positive number are reduced alike, if both can be written or neither. -/
theorem reduce_congr (s : Settings) (ha : 0 < a.magnitude) (h : a.value = a'.value)
    (hw : a.Writable ↔ a'.Writable) :
    reduce s a.magnitude.toNat a.places = reduce s a'.magnitude.toNat a'.places := by
  have ha' : 0 < a'.magnitude := by rwa [magnitude_pos_iff, ← h, ← magnitude_pos_iff]
  have hscaled : scaled a.magnitude.toNat a.places = scaled a'.magnitude.toNat a'.places := by
    rw [← value_eq_scaled ha.le, ← value_eq_scaled ha'.le, h]
  rw [writable_iff ha, writable_iff ha'] at hw
  rw [reduce, reduce, normalize_eq, normalize_eq, mantissa_congr (by omega) (by omega) hscaled,
    if_congr hw rfl rfl]

/-- Representations of one number have one and the same logarithm, if they have any. -/
theorem log10_congr (s : Settings) (h : a.value = a'.value) (hw : a.Writable ↔ a'.Writable) :
    log10 s a = log10 s a' := by
  by_cases ha : 0 < a.magnitude
  · have ha' : 0 < a'.magnitude := by rwa [magnitude_pos_iff, ← h, ← magnitude_pos_iff]
    rw [log10, log10, if_neg (not_le.2 ha), if_neg (not_le.2 ha'), reduce_congr s ha h hw]
  · have ha' : ¬ 0 < a'.magnitude := by rwa [magnitude_pos_iff, ← h, ← magnitude_pos_iff]
    rw [log10, log10, if_pos (not_lt.1 ha), if_pos (not_lt.1 ha')]

theorem exists_log10 (ha : 0 < a.magnitude) (hw : a.Writable) : ∃ r, log10 {} a = .ok r := by
  have hn : 0 < a.magnitude.toNat := by omega
  obtain ⟨r, hr, -⟩ := reduce_default hn ((writable_iff ha).1 hw) a.places
  rw [log10, if_neg (not_le.2 ha), hr]
  exact ⟨_, rfl⟩

end

/-! ## Quotients -/

/-- Quotients of representations of one dividend agree but for a unit of the coarser place. -/
theorem exists_quotients (s : Settings) (h : a.value = a'.value) (hb : b.magnitude ≠ 0) :
    ∃ r r', div s a b = .ok r ∧ div s a' b = .ok r' ∧
      |r.value - r'.value| < 1 / 10 ^ (s.extraDigits + min a.places a'.places) := by
  obtain ⟨r, hr, -, hcut⟩ := isCut_div s a hb
  obtain ⟨r', hr', -, hcut'⟩ := isCut_div s a' hb
  refine ⟨r, r', hr, hr', ?_⟩
  rw [← h] at hcut'
  have hplaces : s.extraDigits + min a.places a'.places =
      min (a.places + s.extraDigits) (a'.places + s.extraDigits) := by omega
  rw [hplaces]
  exact hcut.abs_sub_lt hcut'

/-- **Equal decimals are interchangeable.** Let each of two operands be replaced by a decimal that is
equal to it. Sums, differences, products, opposites and maxima are equal to what they were, and the
order of the operands, from which every comparison is read, is the same; texts, logarithms and
quotients by another divisor are the very same, except that a representation which cannot be written in its
digits has neither text nor logarithm. A positive number that can be written has a logarithm, with the default
settings; and there are quotients unless the divisor is zero, those of another dividend being less than a unit
of the coarser place away. -/
theorem equal_interchangeable [DigitLimit] (ha : a.cmp a' = .eq) (hb : b.cmp b' = .eq) (s : Settings) :
    (a.add b).cmp (a'.add b') = .eq ∧ (a.sub b).cmp (a'.sub b') = .eq ∧
      (a.mul b).cmp (a'.mul b') = .eq ∧ a.neg.cmp a'.neg = .eq ∧
      (a.max b).cmp (a'.max b') = .eq ∧ a.cmp b = a'.cmp b' ∧
      ((a.Writable ↔ a'.Writable) →
        (∀ d : Int, scientific? d a = scientific? d a') ∧ log10 s a = log10 s a') ∧
      (0 < a.magnitude → a.Writable → a'.Writable → ∃ r, log10 {} a = .ok r ∧ log10 {} a' = .ok r) ∧
      (¬ a.Writable →
        (∀ d : Nat, a.magnitude ≠ 0 →
          scientific? d a = .error (.conversion (.tooLongToPrint DigitLimit.most))) ∧
        (0 < a.magnitude → log10 s a = .error (.conversion (.tooLongToPrint DigitLimit.most)))) ∧
      div s a b = div s a b' ∧
      (b.magnitude ≠ 0 → ∃ r r', div s a b = .ok r ∧ div s a' b = .ok r' ∧
        |r.value - r'.value| < 1 / 10 ^ (s.extraDigits + min a.places a'.places)) := by
  rw [cmp_eq_iff] at ha hb
  obtain ⟨hadd, hsub, hmul, hneg, hmax, hcmp⟩ := exact_congr ha hb
  refine ⟨hadd, hsub, hmul, hneg, hmax, hcmp, fun hw => ⟨scientific?_congr ha hw, log10_congr s ha hw⟩,
    fun hpos hw hw' => ?_, fun hw => ⟨fun d hzero => scientific?_of_not_writable hzero hw d,
    fun hpos => log10_of_not_writable s hpos hw⟩, div_congr_right s a hb, exists_quotients s ha⟩
  obtain ⟨r, hr⟩ := exists_log10 hpos hw
  exact ⟨r, hr, log10_congr {} ha (iff_of_true hw hw') ▸ hr⟩

/-- The number 2 as 2 and as 2.000, and -7.5 as -7.50 and as -7.5. The quotients are cut off at the
twentieth and at the twenty-third place. -/
theorem equal_interchangeable_two :
    let _ : DigitLimit := .standard
    let a : Decimal := ⟨2, 0⟩
    let a' : Decimal := ⟨2000, 3⟩
    let b : Decimal := ⟨-750, 2⟩
    let b' : Decimal := ⟨-75, 1⟩
    a.cmp a' = .eq ∧ b.cmp b' = .eq ∧ scientific? 3 a = scientific? 3 a' ∧
      (∃ r, log10 {} a = .ok r ∧ log10 {} a' = .ok r) ∧
      (∃ r r', div {} a b = .ok r ∧ div {} a' b = .ok r' ∧ |r.value - r'.value| < 1 / 10 ^ 20) := by
  intro limit a a' b b'
  have ha : a.cmp a' = .eq := by decide
  have hb : b.cmp b' = .eq := by decide
  have hw : a.Writable := by decide
  have hw' : a'.Writable := by decide
  obtain ⟨-, -, -, -, -, -, halike, hlog, -, -, hquotients⟩ := equal_interchangeable ha hb {}
  exact ⟨ha, hb, (halike (iff_of_true hw hw')).1 3, hlog (by decide) hw hw', hquotients (by decide)⟩

end Reckoner.Decimal
