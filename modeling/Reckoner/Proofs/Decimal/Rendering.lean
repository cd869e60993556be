import Reckoner.Decimal.Scientific
import Reckoner.Proofs.Decimal.Rounding
import Reckoner.Proofs.Literal.Numeral
import Reckoner.Proofs.Literal.Scan

/-!
# Scientific notation and back

A `Rendering` is a number in scientific notation, taken apart: it determines a text and the number
that a literal of this text is read as (`read_rendering`). What is written for a decimal is the
rendering of the rounded number (`exists_rendering`), which is determined by that number
(`Rendering.Shows.unique`). Main theorem `read_scientific`: the text that is written for a decimal is
read as the decimal rounded to the digits that are written, and written again just the same. Nothing is
written, or read, only where an integer on the way has too many digits (`Rendering.Printable`).
-/
namespace Reckoner.Decimal

open CharClass Literal

/-! ## Leading digits -/

/-- An integer division that half the divisor is added for is off by no more than a half. -/
theorem quotient_halves (n : Nat) {u : Nat} (hu : 0 < u) (heven : Even u) :
    (((n + u / 2) / u : Nat) : ℚ) - 1 / 2 ≤ n / u ∧ (n : ℚ) / u < ((n + u / 2) / u : Nat) + 1 / 2 := by
  obtain ⟨h, rfl⟩ := heven
  have hhalf : (h + h) / 2 = h := by omega
  rw [hhalf]
  generalize hq : (n + h) / (h + h) = q
  have hle : q * (h + h) ≤ n + h := hq ▸ Nat.div_mul_le_self _ _
  have hlt : n + h < (q + 1) * (h + h) := Nat.lt_mul_of_div_lt (by omega) hu
  have hpos : (0 : ℚ) < ((h + h : Nat) : ℚ) := by exact_mod_cast hu
  have hleQ : ((q * (h + h) : Nat) : ℚ) ≤ ((n + h : Nat) : ℚ) := by exact_mod_cast hle
  have hltQ : ((n + h : Nat) : ℚ) < (((q + 1) * (h + h) : Nat) : ℚ) := by exact_mod_cast hlt
  rw [le_div_iff₀ hpos, div_lt_iff₀ hpos]
  push_cast at *
  constructor <;> linarith

/-- Rounding at a place keeps the number between the powers of ten, the upper one included. -/
theorem quotient_bounds {n d j : Nat} (hlo : 10 ^ (d + j) ≤ n) (hhi : n < 10 ^ (d + 1 + j)) :
    10 ^ d ≤ (n + 10 ^ j / 2) / 10 ^ j ∧ (n + 10 ^ j / 2) / 10 ^ j ≤ 10 ^ (d + 1) := by
  have hpos : 0 < 10 ^ j := by positivity
  constructor
  · rw [Nat.le_div_iff_mul_le hpos, ← pow_add]
    omega
  · rw [← Nat.lt_add_one_iff, Nat.div_lt_iff_lt_mul hpos, add_mul, ← pow_add]
    omega

/-- The first `kept` digits of a number, rounded, and whether rounding made one digit more of them: what
`leadingDigits` gives where the number can be written. -/
def leading (kept n : Nat) : Nat × Bool :=
  if kept < digitCount n then
    let rounded := (n + pow10 (digitCount n - kept) / 2) / pow10 (digitCount n - kept)
    if kept < digitCount rounded then (rounded / 10, true) else (rounded, false)
  else (n * pow10 (kept - digitCount n), false)

/-- As many digits as are kept, `d` and the first one, lead a number: with the carried place they are
the number in units of the last one's place, up to a half. -/
structure Leads (d n : Nat) (x : Nat × Bool) : Prop where
  pow_le : 10 ^ d ≤ x.1
  lt_pow : x.1 < 10 ^ (d + 1)
  le : ((x.1 * 10 ^ x.2.toNat : Nat) : ℚ) - 1 / 2 ≤ n * 10 ^ ((d : Int) + 1 - digitCount n)
  lt : n * 10 ^ ((d : Int) + 1 - digitCount n) < ((x.1 * 10 ^ x.2.toNat : Nat) : ℚ) + 1 / 2

/-- A rounded number with a digit too many is the upper power of ten, and its last zero is carried. -/
theorem leads_carry {d n m : Nat} (hge : 10 ^ d ≤ m) (hle : m ≤ 10 ^ (d + 1))
    (hlo : (m : ℚ) - 1 / 2 ≤ n * 10 ^ ((d : Int) + 1 - digitCount n))
    (hhi : n * 10 ^ ((d : Int) + 1 - digitCount n) < (m : ℚ) + 1 / 2) :
    Leads d n (if d + 1 < digitCount m then (m / 10, true) else (m, false)) := by
  split
  · rename_i hcarry
    have hm : m = 10 ^ d * 10 := by
      have hpow : 10 ^ (d + 1) ≤ 10 ^ (digitCount m - 1) := Nat.pow_le_pow_right (by decide) (by omega)
      have hcount := pow_digitCount_le (lt_of_lt_of_le (by positivity) hge)
      omega
    rw [hm] at hlo hhi
    rw [hm, Nat.mul_div_cancel _ (by decide)]
    exact ⟨le_refl _, Nat.pow_lt_pow_right (by decide) (Nat.lt_succ_self d), hlo, hhi⟩
  · have hlt : m < 10 ^ (d + 1) :=
      lt_of_lt_of_le (lt_pow_digitCount m) (Nat.pow_le_pow_right (by decide) (by omega))
    rw [← mul_one m] at hlo hhi
    exact ⟨hge, hlt, hlo, hhi⟩

/-- A number with too many digits is rounded, which may carry into a further place. -/
theorem leads_of_long {d n : Nat} (hn : 0 < n) (hlong : d + 1 < digitCount n) :
    Leads d n (leading (d + 1) n) := by
  obtain ⟨j, hj⟩ : ∃ j, digitCount n = d + 1 + (j + 1) := ⟨digitCount n - (d + 2), by omega⟩
  have hunit : (n : ℚ) * 10 ^ ((d : Int) + 1 - digitCount n) = n / (10 ^ (j + 1) : Nat) := by
    have hexp : (d : Int) + 1 - digitCount n = -((j + 1 : Nat) : Int) := by omega
    rw [hexp, zpow_neg, zpow_natCast, div_eq_mul_inv]
    push_cast
    rfl
  have hhalves := quotient_halves n (by positivity) ((by decide : Even 10).pow_of_ne_zero (Nat.succ_ne_zero j))
  rw [← hunit] at hhalves
  have hlo : 10 ^ (d + (j + 1)) ≤ n := by
    have hexp : digitCount n - 1 = d + (j + 1) := by omega
    rw [← hexp]
    exact pow_digitCount_le hn
  have hbounds := quotient_bounds hlo (hj ▸ lt_pow_digitCount n)
  have hcut : leading (d + 1) n =
      if d + 1 < digitCount ((n + 10 ^ (j + 1) / 2) / 10 ^ (j + 1)) then
        ((n + 10 ^ (j + 1) / 2) / 10 ^ (j + 1) / 10, true)
      else ((n + 10 ^ (j + 1) / 2) / 10 ^ (j + 1), false) := by
    have hsub : digitCount n - (d + 1) = j + 1 := by omega
    rw [← hsub]
    exact if_pos hlong
  rw [hcut]
  exact leads_carry hbounds.1 hbounds.2 hhalves.1 hhalves.2

/-- A number with few digits is padded with zeros. -/
theorem leads_of_short {d n : Nat} (hn : 0 < n) (hshort : digitCount n ≤ d + 1) :
    Leads d n (leading (d + 1) n) := by
  have hcount := digitCount_pos n
  obtain ⟨j, hj⟩ : ∃ j, d + 1 = digitCount n + j := ⟨d + 1 - digitCount n, by omega⟩
  have hpadded : leading (d + 1) n = (n * 10 ^ j, false) := by
    have hsub : d + 1 - digitCount n = j := by omega
    rw [← hsub]
    exact if_neg (not_lt.2 hshort)
  have hexact : ((n * 10 ^ j * 10 ^ false.toNat : Nat) : ℚ) = n * 10 ^ ((d : Int) + 1 - digitCount n) := by
    have hexp : (d : Int) + 1 - digitCount n = j := by omega
    rw [hexp, zpow_natCast]
    push_cast
    simp
  have hge : 10 ^ d ≤ n * 10 ^ j := by
    have hexp : d = digitCount n - 1 + j := by omega
    rw [hexp, pow_add]
    exact Nat.mul_le_mul_right _ (pow_digitCount_le hn)
  have hlt : n * 10 ^ j < 10 ^ (d + 1) := by
    rw [hj, pow_add]
    exact Nat.mul_lt_mul_of_pos_right (lt_pow_digitCount n) (by positivity)
  rw [hpadded]
  exact ⟨hge, hlt, by linarith, by linarith⟩

theorem leads_leading (d : Nat) {n : Nat} (hn : 0 < n) : Leads d n (leading (d + 1) n) := by
  by_cases hlong : d + 1 < digitCount n
  · exact leads_of_long hn hlong
  · exact leads_of_short hn (by omega)

/-- A number that can be written has no fewer digits than it has once rounded, so that its leading digits are
found. -/
theorem leadingDigits_eq [DigitLimit] {d n : Nat} (hn : 0 < n) (hwritten : DigitLimit.Allows (digitCount n)) :
    leadingDigits (d + 1) (digitCount n) n = .ok (leading (d + 1) n) := by
  unfold leadingDigits leading
  by_cases hlong : d + 1 < digitCount n
  · have hrounded : (n + pow10 (digitCount n - (d + 1)) / 2) / pow10 (digitCount n - (d + 1)) <
        10 ^ (d + 1 + 1) := by
      obtain ⟨j, hj⟩ : ∃ j, digitCount n = d + 1 + j := ⟨digitCount n - (d + 1), by omega⟩
      have hlo : 10 ^ (d + j) ≤ n := by
        have hexp : digitCount n - 1 = d + j := by omega
        rw [← hexp]
        exact pow_digitCount_le hn
      have hj' : digitCount n - (d + 1) = j := by omega
      rw [hj']
      exact (quotient_bounds hlo (hj ▸ lt_pow_digitCount n)).2.trans_lt
        (Nat.pow_lt_pow_right (by decide) (Nat.lt_succ_self _))
    have hallowed := hwritten.mono ((digitCount_le (Nat.succ_pos _) hrounded).trans hlong)
    rw [if_pos hlong, if_pos hlong]
    simp only [bind, Except.bind, print_eq, Int.natAbs_natCast, if_pos hallowed, write_natCast, pure,
      Except.pure]
    rfl
  · rw [if_neg hlong, if_neg hlong]

/-- The leading digits in their place are the rounded number. -/
theorem Leads.isRounded {d n : Nat} {x : Nat × Bool} (h : Leads d n x) (hn : 0 < n) (places : Int) :
    IsRounded (d + 1) (scaled n places)
      (scaled x.1 (d - ((digitCount n : Int) - 1 - places + x.2.toNat))) := by
  have hpos := scaled_pos hn places
  have hplace : lastPlace (d + 1) (scaled n places) = (digitCount n : Int) - 1 - places - d := by
    rw [lastPlace, abs_of_pos hpos, log_scaled hn]
    push_cast
    ring
  have hunits : scaled n places / 10 ^ lastPlace (d + 1) (scaled n places) =
      n * 10 ^ ((d : Int) + 1 - digitCount n) := by
    rw [hplace, scaled, mul_div_assoc, ← zpow_sub₀ (by norm_num)]
    congr 2
    ring
  have hvalue : scaled x.1 (d - ((digitCount n : Int) - 1 - places + x.2.toNat)) =
      ((x.1 * 10 ^ x.2.toNat : Nat) : ℚ) * 10 ^ lastPlace (d + 1) (scaled n places) := by
    push_cast
    rw [hplace, scaled, mul_assoc, ← zpow_natCast, ← zpow_add₀ (by norm_num)]
    congr 2
    ring
  rw [hvalue]
  exact isRounded_of_bounds hpos.le (hunits ▸ h.le) (hunits ▸ h.lt)

/-! ## Renderings -/

/-- A number in scientific notation. -/
structure Rendering where
  negative : Bool
  lead : Member .digit
  /-- The digits after the comma. -/
  more : List (Member .digit)
  exponent : Int

namespace Rendering

/-- The number in writing: there is a comma if digits come after it, and an exponent unless it is
zero. -/
def text (x : Rendering) : List Char :=
  (if x.negative then ['-'] else []) ++ x.lead.1 ::
    ((if x.more.length = 0 then [] else ',' :: spelling x.more) ++
      if x.exponent = 0 then [] else 'e' :: Integer.write x.exponent)

def significand (x : Rendering) : Int :=
  (if x.negative then -1 else 1) * numeral (x.lead :: x.more)

/-- The decimal that the digits, their places and the exponent denote. -/
def decimal (x : Rendering) : Decimal := .ofScaled x.significand (x.more.length - x.exponent)

theorem value_decimal (x : Rendering) : x.decimal.value =
    (if x.negative then -1 else 1) * scaled (numeral (x.lead :: x.more)) (x.more.length - x.exponent) := by
  rw [decimal, value_ofScaled, significand, scaled]
  push_cast
  rw [mul_assoc]

theorem abs_value_decimal (x : Rendering) :
    |x.decimal.value| = scaled (numeral (x.lead :: x.more)) (x.more.length - x.exponent) := by
  have hnonneg := scaled_nonneg (numeral (x.lead :: x.more)) (x.more.length - x.exponent)
  rw [value_decimal]
  split
  · rw [neg_one_mul, abs_neg, abs_of_nonneg hnonneg]
  · rw [one_mul, abs_of_nonneg hnonneg]

theorem fits_decimal (x : Rendering) : Fits (x.more.length + 1) x.decimal.value := by
  refine ⟨x.significand, -(x.more.length - x.exponent), ?_, value_ofScaled _ _⟩
  have habs : |x.significand| = (numeral (x.lead :: x.more) : Int) := by
    unfold significand
    split <;> simp
  rw [habs]
  exact_mod_cast numeral_lt (x.lead :: x.more)

theorem exists_form (x : Rendering) : ∃ f : Form, f.text = x.text ∧ f.decimal = x.decimal ∧
    f.width = x.more.length + 1 ∧
      f.exponentWidth = if x.exponent = 0 then 0 else digitCount x.exponent.natAbs := by
  obtain ⟨negative, lead, more, exponent⟩ := x
  obtain ⟨e, htext, hvalue, hdigitsText⟩ := exists_exponent exponent
  let sign : Option (Member .sign) := if negative then some ⟨'-', by decide⟩ else none
  let fraction : Option (Member .point × Digits) :=
    match more with
    | [] => none
    | d :: ds => some (⟨',', by decide⟩, ⟨d, ds⟩)
  let power : Option Exponent := if exponent = 0 then none else some e
  let f : Form := ⟨sign, ⟨lead, []⟩, fraction, power⟩
  have hsign : signText sign = if negative then ['-'] else [] := by cases negative <;> rfl
  have hfactor : signFactor sign = if negative then -1 else 1 := by cases negative <;> rfl
  have hfraction : f.fractionText = if more.length = 0 then [] else ',' :: spelling more := by
    cases more <;> rfl
  have hdigits : f.fractionDigits = more := by cases more <;> rfl
  have hexponent : f.exponentText = if exponent = 0 then [] else 'e' :: Integer.write exponent := by
    by_cases he : exponent = 0
    · simp [f, Form.exponentText, power, he]
    · simp [f, Form.exponentText, power, he, htext]
  have hpower : f.power = exponent := by
    by_cases he : exponent = 0
    · simp [f, Form.power, power, he]
    · simp [f, Form.power, power, he, hvalue]
  have hwidth : e.digits.list.length = digitCount exponent.natAbs := by
    rw [digitCount, ← hdigitsText, Digits.text, spelling, List.length_map]
  refine ⟨f, ?_, ?_, ?_, ?_⟩
  · rw [Form.text_eq, hfraction, hexponent, text, ← hsign]
    rfl
  · rw [Form.decimal, hdigits, hpower, decimal, significand, ← hfactor]
    rfl
  · rw [Form.width, hdigits, add_comm]
    rfl
  · by_cases he : exponent = 0
    · simp [f, Form.exponentWidth, power, he]
    · simp [f, Form.exponentWidth, power, he, hwidth]

section

variable [DigitLimit]

/-- Are the integers short enough that are written on the way to a rendering: the magnitude of the decimal, the
digits that are kept and the exponent? For zero none of them is written. -/
def Printable (x : Rendering) (a : Decimal) : Prop :=
  a.magnitude = 0 ∨ a.Writable ∧ DigitLimit.Allows (x.more.length + 1) ∧
    DigitLimit.Allows (digitCount x.exponent.natAbs)

instance (x : Rendering) (a : Decimal) : Decidable (x.Printable a) := inferInstanceAs (Decidable (_ ∨ _))

/-- The text of a rendering with a short exponent is read as the number that it denotes, if its digits are few
enough to be read as one integer. -/
theorem read_rendering {x : Rendering} (h : DigitLimit.Allows (digitCount x.exponent.natAbs)) :
    Literal.read x.text = if DigitLimit.Allows (x.more.length + 1) then .ok x.decimal
      else .error (.conversion (.tooLongToRead DigitLimit.most (x.more.length + 1))) := by
  obtain ⟨f, htext, hdecimal, hwidth, hexponent⟩ := x.exists_form
  have hscannable : f.Scannable := by
    rw [Form.Scannable, hexponent]
    split
    · exact DigitLimit.allows_of_le (Nat.zero_le _)
    · exact h
  rw [← htext, read_text, Form.readError, if_pos hscannable, hdecimal, ← hwidth]
  exact if_congr (and_iff_right hscannable) rfl rfl

end

/-- The rendering shows a decimal with `d` digits after the comma: with a sign if it is negative, with a
leading digit other than zero unless it is zero, and with the exponent of the leading digit's place in
the rounded number. -/
structure Shows (x : Rendering) (d : Nat) (a : Decimal) : Prop where
  length : x.more.length = d
  negative : x.negative = true ↔ a.magnitude < 0
  lead : x.lead.1 = '0' ↔ a.magnitude = 0
  exponent : x.exponent = Int.log 10 |x.decimal.value|
  rounded : IsRounded (d + 1) a.value x.decimal.value

variable {x y : Rendering} {d : Nat} {a b : Decimal}

theorem Shows.magnitude_neg_iff (h : x.Shows d a) : x.decimal.magnitude < 0 ↔ a.magnitude < 0 := by
  rw [← value_neg_iff, value_decimal, ← h.negative]
  by_cases hneg : x.negative = true
  · have hlead : x.lead.1 ≠ '0' := mt h.lead.1 (h.negative.1 hneg).ne
    have hnumeral : 0 < numeral (x.lead :: x.more) := numeral_pos hlead
    simp [hneg, scaled_pos hnumeral]
  · simp [hneg, scaled_nonneg]

theorem Shows.exponent_of_zero (h : x.Shows d a) (ha : a.magnitude = 0) : x.exponent = 0 := by
  have hzero : a.value = 0 := by simp [value, ha]
  have hfits : Fits (d + 1) a.value := ⟨0, 0, by positivity, by simp [hzero]⟩
  have hvalue : x.decimal.value = 0 := (h.rounded.eq_of_fits hfits).trans hzero
  rw [h.exponent, hvalue, abs_zero, Int.log_zero_right]

/-- The sign and the rounded number determine the rendering. -/
theorem Shows.unique (hx : x.Shows d a) (hy : y.Shows d b) (hsign : a.magnitude < 0 ↔ b.magnitude < 0)
    (hvalue : x.decimal.value = y.decimal.value) : x = y := by
  have hlength : x.more.length = y.more.length := hx.length.trans hy.length.symm
  have hexponent : x.exponent = y.exponent := by rw [hx.exponent, hy.exponent, hvalue]
  have hnegative : x.negative = y.negative := by
    rw [Bool.eq_iff_iff, hx.negative, hy.negative, hsign]
  have hnumeral : numeral (x.lead :: x.more) = numeral (y.lead :: y.more) := by
    have habs := congrArg abs hvalue
    rw [abs_value_decimal, abs_value_decimal, hlength, hexponent, scaled, scaled] at habs
    exact_mod_cast mul_right_cancel₀ (by positivity) habs
  have hdigits := numeral_injective (by simp [hlength]) hnumeral
  obtain ⟨hlead, hmore⟩ := List.cons.inj hdigits
  cases x
  cases y
  simp_all

end Rendering

/-! ## What is written -/

theorem withComma_spelling (d : Member .digit) (ds : List (Member .digit)) :
    withComma (spelling (d :: ds)) = d.1 :: if ds.length = 0 then [] else ',' :: spelling ds := by
  cases ds <;> rfl

section

variable [DigitLimit]

theorem exists_rendering_zero (d : Nat) {a : Decimal} (ha : a.magnitude = 0) :
    ∃ x : Rendering, scientific d a = .ok x.text ∧ x.Shows d a := by
  let x : Rendering := ⟨false, zeroDigit, List.replicate d zeroDigit, 0⟩
  have hvalue : x.decimal.value = 0 := by
    rw [x.value_decimal, scaled, ← List.replicate_succ, numeral_zeros]
    simp
  have ha0 : a.value = 0 := by simp [value, ha]
  refine ⟨x, ?_, List.length_replicate, by simp [x, ha], by simp [x, zeroDigit, ha], ?_, ?_⟩
  · have hspelling : List.replicate (d + 1) '0' = spelling (zeroDigit :: List.replicate d zeroDigit) := by
      simp [spelling, List.replicate_succ, zeroDigit]
    simp only [scientific, ha, Int.natAbs_zero, if_true]
    rw [hspelling, withComma_spelling]
    simp [x, Rendering.text]
  · rw [hvalue, abs_zero, Int.log_zero_right]
  · rw [ha0, hvalue]
    exact isRounded_zero (d + 1)

theorem exponentPart_eq (e : Int) :
    exponentPart e = if DigitLimit.Allows (digitCount e.natAbs) then
        .ok (if e = 0 then [] else 'e' :: Integer.write e)
      else .error (.tooLongToPrint DigitLimit.most) := by
  unfold exponentPart
  by_cases he : e = 0
  · have hallowed : DigitLimit.Allows (digitCount e.natAbs) :=
      DigitLimit.allows_of_le (he ▸ (by decide : digitCount (0 : Int).natAbs ≤ 640))
    rw [if_pos he, if_pos he, if_pos hallowed]
  · rw [if_neg he, if_neg he, print_eq]
    split <;> rfl

/-- What is written for a decimal other than zero: its leading digits and the exponent. -/
theorem scientific_eq (d : Nat) {a : Decimal} {m : Nat} {carried : Bool} (hn : 0 < a.magnitude.natAbs)
    (hleading : leading (d + 1) a.magnitude.natAbs = (m, carried)) (hcount : digitCount m = d + 1) {e : Int}
    (he : e = (digitCount a.magnitude.natAbs : Int) - 1 - a.places + carried.toNat) :
    scientific d a =
      if a.Writable ∧ DigitLimit.Allows (d + 1) ∧ DigitLimit.Allows (digitCount e.natAbs) then
        .ok ((if a.magnitude < 0 then ['-'] else []) ++ withComma (Integer.digits m) ++
          if e = 0 then [] else 'e' :: Integer.write e)
      else .error (.tooLongToPrint DigitLimit.most) := by
  have hexponent : (if carried = true then (digitCount a.magnitude.natAbs : Int) - 1 - a.places + 1
      else (digitCount a.magnitude.natAbs : Int) - 1 - a.places) = e := by
    cases carried <;> simp [he]
  simp only [scientific, if_neg hn.ne', print_eq, Int.natAbs_natCast, Writable]
  by_cases hwritten : DigitLimit.Allows (digitCount a.magnitude.natAbs)
  · have hdigits := leadingDigits_eq (d := d) hn hwritten
    rw [hleading] at hdigits
    simp only [if_pos hwritten, bind, Except.bind, write_natCast]
    rw [← digitCount, hdigits]
    simp only [hcount, hexponent, exponentPart_eq, true_and, hwritten]
    by_cases hkept : DigitLimit.Allows (d + 1) <;>
      by_cases hshort : DigitLimit.Allows (digitCount e.natAbs) <;>
        simp [hkept, hshort, pure, Except.pure]
  · simp only [hwritten, false_and, if_false]
    rfl

/-- What is written for a decimal is a rendering that shows it, where every integer in it can be written. -/
theorem exists_rendering (d : Nat) (a : Decimal) :
    ∃ x : Rendering, x.Shows d a ∧
      scientific d a = if x.Printable a then .ok x.text else .error (.tooLongToPrint DigitLimit.most) := by
  by_cases ha : a.magnitude = 0
  · obtain ⟨x, htext, hx⟩ := exists_rendering_zero d ha
    exact ⟨x, hx, by rw [htext, if_pos (.inl ha)]⟩
  have hn : 0 < a.magnitude.natAbs := Int.natAbs_pos.2 ha
  have hleads := leads_leading d hn
  generalize hleading : leading (d + 1) a.magnitude.natAbs = r at hleads
  obtain ⟨m, carried⟩ := r
  obtain ⟨ds, htext, hvalue⟩ := exists_digits m
  have hcount : digitCount m = d + 1 := digitCount_eq hleads.pow_le hleads.lt_pow
  have hlength : ds.more.length = d := by
    have htext := congrArg List.length htext
    simp only [Digits.text, Digits.list, spelling, List.map_cons, List.length_cons, List.length_map] at htext
    exact Nat.succ.inj (htext.trans hcount)
  let x : Rendering := ⟨decide (a.magnitude < 0), ds.first, ds.more,
    (digitCount a.magnitude.natAbs : Int) - 1 - a.places + carried.toNat⟩
  have hm : numeral (x.lead :: x.more) = m := hvalue
  have hm0 : 0 < m := lt_of_lt_of_le (by positivity) hleads.pow_le
  refine ⟨x, ⟨hlength, decide_eq_true_iff, ?_, ?_, ?_⟩, ?_⟩
  · constructor
    · intro hlead
      have hpow : 10 ^ ds.more.length ≤ numeral (ds.first :: ds.more) := by
        rw [hlength, hm]
        exact hleads.pow_le
      exact absurd hlead (first_ne_zero_of_pow_le hpow)
    · exact fun hzero => absurd hzero ha
  · rw [x.abs_value_decimal, hm, log_scaled hm0, hcount]
    simp only [x, hlength]
    push_cast
    ring
  · have hrounded := hleads.isRounded hn a.places
    rw [x.value_decimal, value_eq_signed, hm]
    simp only [x, hlength, decide_eq_true_iff]
    split
    · rw [neg_one_mul, neg_one_mul]
      exact hrounded.neg
    · rw [one_mul, one_mul]
      exact hrounded
  · have hspelling : Integer.digits m = spelling (ds.first :: ds.more) := htext.symm
    have hprintable : x.Printable a ↔
        a.Writable ∧ DigitLimit.Allows (d + 1) ∧ DigitLimit.Allows (digitCount x.exponent.natAbs) := by
      rw [Rendering.Printable, hlength]
      exact or_iff_right ha
    have hx : x.text = (if a.magnitude < 0 then ['-'] else []) ++ withComma (Integer.digits m) ++
        if x.exponent = 0 then [] else 'e' :: Integer.write x.exponent := by
      rw [hspelling, withComma_spelling]
      simp only [x, Rendering.text, decide_eq_true_iff, List.append_assoc, List.cons_append]
    rw [scientific_eq d hn hleading hcount rfl, hx]
    exact if_congr hprintable.symm rfl rfl

/-! ## Reading it back -/

/-- **Scientific notation is correct rounding.** With any count of digits after the comma, a decimal is
written as a rendering that shows it rounded to these digits and the leading one, or not at all if an integer
on the way has too many digits. The text is read as the decimal that the rendering denotes, unless its own
digits are too many; that decimal is equal to the one that was written if that needs no more digits, and is
written the same way again. -/
theorem read_scientific (d : Nat) (a : Decimal) :
    ∃ x : Rendering, x.Shows d a ∧
      scientific? d a = (if x.Printable a then .ok x.text
        else .error (.conversion (.tooLongToPrint DigitLimit.most))) ∧
      (x.Printable a → Literal.read x.text = if DigitLimit.Allows (d + 1) then .ok x.decimal
        else .error (.conversion (.tooLongToRead DigitLimit.most (d + 1)))) ∧
      (Fits (d + 1) a.value → x.decimal.cmp a = .eq) ∧
      scientific? d x.decimal = (if x.Printable x.decimal then .ok x.text
        else .error (.conversion (.tooLongToPrint DigitLimit.most))) := by
  have hwritten (b : Decimal) : scientific? d b = (scientific d b).mapError .conversion := by
    rw [scientific?, if_neg (by omega), Int.toNat_natCast]
  obtain ⟨x, hx, htext⟩ := exists_rendering d a
  obtain ⟨y, hy, hytext⟩ := exists_rendering d x.decimal
  have hfits := x.fits_decimal
  rw [hx.length] at hfits
  have hsame : y = x := hy.unique hx hx.magnitude_neg_iff (hy.rounded.eq_of_fits hfits)
  refine ⟨x, hx, ?_, fun hprintable => ?_, fun ha => ?_, ?_⟩
  · rw [hwritten, htext]
    split <;> rfl
  · have hexponent : DigitLimit.Allows (digitCount x.exponent.natAbs) := by
      rcases hprintable with hzero | ⟨-, -, hexponent⟩
      · exact DigitLimit.allows_of_le (hx.exponent_of_zero hzero ▸ by decide)
      · exact hexponent
    rw [Rendering.read_rendering hexponent, hx.length]
  · rw [cmp_eq_compare, compare_eq_iff_eq]
    exact hx.rounded.eq_of_fits ha
  · rw [hwritten, hytext, hsame]
    split <;> rfl

end

/-- Rounding to three digits carries into a new leading digit. -/
example : let _ : DigitLimit := .standard; scientific 2 ⟨-9996, 1⟩ = .ok "-1,00e3".toList := by decide

end Reckoner.Decimal
