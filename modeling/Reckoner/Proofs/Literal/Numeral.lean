import Reckoner.Proofs.Literal.Form

/-!
# Integers as digits

Digits determine the number that they denote, and as many digits that denote the same number are the
same (`numeral_injective`). Every natural number is written as digits that denote it
(`exists_digits`), and every integer as an exponent of that value (`exists_exponent`).
-/
namespace Reckoner.Literal

open CharClass

/-! ## Digits of a number -/

theorem digit_lt (d : Member .digit) : digit d < 10 :=
  forall_has (P := fun c => c.toNat - 48 < 10) (by decide) d.2

theorem digitChar_digit (d : Member .digit) : Nat.digitChar (digit d) = d.1 :=
  forall_has (P := fun c => Nat.digitChar (c.toNat - 48) = c) (by decide) d.2

theorem digit_injective : Function.Injective digit := by
  intro d e h
  rw [Subtype.ext_iff, ← digitChar_digit d, ← digitChar_digit e, h]

theorem digits_lt (ds : List (Member .digit)) : ∀ n ∈ ds.reverse.map digit, n < 10 := by
  intro n hn
  obtain ⟨d, _, rfl⟩ := List.mem_map.1 hn
  exact digit_lt d

theorem numeral_lt (ds : List (Member .digit)) : numeral ds < 10 ^ ds.length := by
  have hlt := Nat.ofDigits_lt_base_pow_length (by decide) (digits_lt ds)
  rwa [List.length_map, List.length_reverse] at hlt

theorem numeral_injective {ds es : List (Member .digit)} (hlength : ds.length = es.length)
    (h : numeral ds = numeral es) : ds = es := by
  have hvalues := Nat.ofDigits_inj_of_len_eq (by decide) (by simp [hlength]) (digits_lt ds) (digits_lt es) h
  exact List.reverse_injective (List.map_injective_iff.2 digit_injective hvalues)

def zeroDigit : Member .digit := ⟨'0', by decide⟩

theorem numeral_zeros (k : Nat) : numeral (List.replicate k zeroDigit) = 0 := by
  induction k with
  | zero => rfl
  | succ k ih =>
    have hdigit : digit zeroDigit = 0 := rfl
    rw [List.replicate_succ, numeral_cons, ih, hdigit, zero_mul]

variable {d : Member .digit} {ds : List (Member .digit)}

theorem numeral_pos (h : d.1 ≠ '0') : 0 < numeral (d :: ds) := by
  have hdigit : digit d ≠ 0 := by
    intro hzero
    rw [← digitChar_digit, hzero] at h
    exact h rfl
  rw [numeral_cons]
  positivity

/-- Digits that denote as much as a one among them in front do not start with a zero. -/
theorem first_ne_zero_of_pow_le (h : 10 ^ ds.length ≤ numeral (d :: ds)) : d.1 ≠ '0' := by
  intro hd
  have hdigit : digit d = 0 := by
    rw [digit, hd]
    rfl
  rw [numeral_cons, hdigit, zero_mul, zero_add] at h
  exact absurd h (not_le.2 (numeral_lt ds))

/-! ## Numbers in writing -/

theorem exists_digit {n : Nat} (hn : n < 10) : ∃ d : Member .digit, d.1 = Nat.digitChar n ∧ digit d = n := by
  have hall : ∀ n < 10, CharClass.digit.has (Nat.digitChar n) = true ∧
      (Nat.digitChar n).toNat - 48 = n := by decide
  obtain ⟨hdigit, hvalue⟩ := hall n hn
  exact ⟨⟨Nat.digitChar n, hdigit⟩, rfl, hvalue⟩

/-- Every natural number is written as digits that denote it. -/
theorem exists_digits (n : Nat) : ∃ ds : Digits, ds.text = Integer.digits n ∧ numeral ds.list = n := by
  induction n using Nat.strong_induction_on with
  | _ n ih =>
    by_cases hn : n < 10
    · obtain ⟨d, hd, hvalue⟩ := exists_digit hn
      refine ⟨⟨d, []⟩, ?_, ?_⟩
      · simp [Digits.text, Digits.list, spelling, Integer.digits, Nat.toDigits_of_lt_base hn, hd]
      · simp [Digits.list, numeral, hvalue]
    · obtain ⟨ds, htext, hvalue⟩ := ih (n / 10) (by omega)
      obtain ⟨d, hd, hdigit⟩ := exists_digit (Nat.mod_lt n (by decide))
      refine ⟨ds.add d, ?_, ?_⟩
      · rw [Digits.text_add, htext, hd, Integer.digits, Integer.digits,
          ← Nat.toDigits_of_base_le (by decide) (by omega)]
      · have hlist : (ds.add d).list = ds.list ++ [d] := rfl
        have hlast : numeral [d] = n % 10 := by simp [numeral, hdigit]
        rw [hlist, numeral_append, hvalue, hlast]
        simp only [List.length_singleton]
        omega

/-- Every integer is written as an exponent of that value, which has its digits. -/
theorem exists_exponent (e : Int) : ∃ x : Exponent, x.mark.1 :: x.number = 'e' :: Integer.write e ∧
    x.value = e ∧ x.digits.text = Integer.digits e.natAbs := by
  obtain ⟨ds, htext, hvalue⟩ := exists_digits e.natAbs
  by_cases he : e < 0
  · refine ⟨⟨⟨'e', by decide⟩, some ⟨'-', by decide⟩, ds⟩, ?_, ?_, htext⟩
    · simp [Exponent.number, signText, Integer.write, he, htext]
    · have hfactor : signFactor (some ⟨'-', by decide⟩) = -1 := rfl
      rw [Exponent.value, hfactor, hvalue]
      omega
  · refine ⟨⟨⟨'e', by decide⟩, none, ds⟩, ?_, ?_, htext⟩
    · simp [Exponent.number, signText, Integer.write, he, htext]
    · have hfactor : signFactor none = 1 := rfl
      rw [Exponent.value, hfactor, hvalue]
      omega

end Reckoner.Literal
