import Reckoner.Proofs.Literal.Longest

/-!
# Texts that are literals

A text is read if it is a literal between margins. The scan goes as far as the longest literal at the
start of the text does, so that the text is a literal just if that is all of it (`partsOf_of_longest`);
and where no literal starts, the scan fails (`partsOf_of_not_starts`). Main theorem
`read_accepts_literals`: which texts are read, as which decimal, and how the others are refused, those with
too many digits among them.
-/
namespace Reckoner

namespace Decimal

theorem places_ofScaled (m p : Int) : ((ofScaled m p).places : Int) = Max.max 0 p := by
  unfold ofScaled
  split <;> simp only <;> omega

end Decimal

namespace Literal

open CharClass

/-- No literal starts a text that is at most a sign. -/
theorem Form.not_prefix_signText (f : Form) (s : Option (Member .sign)) : ¬ f.text <+: signText s := by
  cases s with
  | none => exact fun h => f.text_ne_nil (List.prefix_nil.1 h)
  | some s => exact not_starts_of_sign s rfl f

section

variable [DigitLimit] {text : List Char} {f : Form}

theorem Form.readError_of_not_scannable (h : ¬ f.Scannable) :
    f.readError = .misuse (.conversion (.tooLongToRead DigitLimit.most f.exponentWidth)) := if_neg h

/-! ## Whole texts -/

/-- A scan that ends before the text does leaves trailing characters. -/
theorem partsOf_of_longest (h : f.Longest text) :
    partsOf text = if f.Scannable then
        if f.text = text then .ok f.parts
        else .error (.lex (.unexpected text f.text.length "trailing characters"))
      else .error f.readError := by
  have hlength : f.text.length = text.length ↔ f.text = text :=
    ⟨h.starts.eq_of_length, congrArg List.length⟩
  by_cases hscan : f.Scannable
  · simp only [partsOf, run_of_longest h, if_pos hscan, Form.ofRecord_record, hlength]
  · simp only [partsOf, run_of_longest h, if_neg hscan, f.readError_of_not_scannable hscan]

/-- A text that no literal starts is too short if it is at most a sign. -/
theorem partsOf_of_not_starts (h : ∀ f : Form, ¬ f.text <+: text) :
    ∃ e, partsOf text = .error (.lex e) ∧
      ((∃ s, text = signText s) ∧ e = .incomplete text "expected a digit" ∨
        (¬ ∃ s, text = signText s) ∧ ∃ p ≤ 1, e = .unexpected text p "expected a digit") := by
  obtain ⟨e, hrun, he⟩ := run_of_not_starts (V := Unit) h
  exact ⟨e, by simp only [partsOf, hrun], he⟩

/-! ## Texts with margins -/

theorem read_of_strip (h : f.text = strip text) :
    read text = if f.Readable then .ok f.decimal else .error f.readError := by
  have hself : strip f.text = f.text := trim_eq_self f.not_isMargin
  rw [← read_text f, read, read, hself, h]

theorem read_error {e : ReadError} (h : partsOf (strip text) = .error e) : read text = .error e := by
  rw [read, h]
  rfl

/-- What follows a literal is refused, once the literal has been scanned. -/
theorem read_trailing (h : f.Longest (strip text)) (hne : f.text ≠ strip text) :
    read text = .error (if f.Scannable then
      .lex (.unexpected (strip text) f.text.length "trailing characters") else f.readError) :=
  read_error (by rw [partsOf_of_longest h, if_neg hne]; split <;> rfl)

/-- A text that is no literal between margins is refused. -/
theorem read_refuses (h : ¬ ∃ f : Form, f.text = strip text)
    (hscan : ∀ f : Form, f.Longest (strip text) → f.Scannable) :
    ∃ e, read text = .error (.lex e) ∧
      ((∃ s, strip text = signText s) ∧ e = .incomplete (strip text) "expected a digit" ∨
        (¬ ∃ s, strip text = signText s) ∧ ∃ p reason, e = .unexpected (strip text) p reason) := by
  by_cases hstarts : ∃ f : Form, f.text <+: strip text
  · obtain ⟨_, hf⟩ := hstarts
    obtain ⟨g, hg⟩ := exists_longest hf
    have hread := read_trailing hg fun heq => h ⟨g, heq⟩
    rw [if_pos (hscan g hg)] at hread
    refine ⟨_, hread, .inr ⟨?_, _, _, rfl⟩⟩
    rintro ⟨s, hs⟩
    exact g.not_prefix_signText s (hs ▸ hg.starts)
  · push Not at hstarts
    obtain ⟨e, he, hshort | ⟨hlong, p, -, rfl⟩⟩ := partsOf_of_not_starts hstarts
    · exact ⟨e, read_error he, .inl hshort⟩
    · exact ⟨_, read_error he, .inr ⟨hlong, p, _, rfl⟩⟩

/-- What is read is a literal between margins. -/
theorem exists_form_of_read {d : Decimal} (h : read text = .ok d) :
    ∃ f : Form, f.text = strip text ∧ f.Readable := by
  by_contra hnone
  push Not at hnone
  by_cases hliteral : ∃ f : Form, f.text = strip text
  · obtain ⟨f, hf⟩ := hliteral
    rw [read_of_strip hf, if_neg (hnone f hf)] at h
    cases h
  by_cases hscan : ∀ f : Form, f.Longest (strip text) → f.Scannable
  · obtain ⟨e, he, -⟩ := read_refuses hliteral hscan
    rw [h] at he
    cases he
  · push Not at hscan
    obtain ⟨f, hf, -⟩ := hscan
    rw [read_trailing hf fun heq => hliteral ⟨f, heq⟩] at h
    cases h

/-- **Reading accepts the literals and nothing else.** A text is read just if, less its margins, it is a
literal, without more digits than the limit allows. The decimal then stands for the sign times the digits before
and after the mark as one integer, scaled by the exponent less the count of digits after the mark, and it has as
many places as that scale leaves. A literal with too many digits is refused for just that. Any other text is
refused: for want of more text if there is at most a sign, and otherwise at some position, which is the end of the
longest literal if one starts the text, unless that one has too many digits in its exponent. -/
theorem read_accepts_literals (text : List Char) :
    ((∃ d, read text = .ok d) ↔ ∃ f : Form, f.text = strip text ∧ f.Readable) ∧
    (∀ f : Form, f.text = strip text → f.Readable → ∃ d, read text = .ok d ∧
      d.value = signFactor f.sign * numeral (f.integral.list ++ f.fractionDigits) *
        10 ^ (f.power - f.fractionDigits.length) ∧
      (d.places : Int) = max 0 (f.fractionDigits.length - f.power)) ∧
    (∀ f : Form, f.text = strip text → ¬ f.Readable → read text = .error f.readError) ∧
    ((¬ ∃ f : Form, f.text = strip text) → (∀ f : Form, f.Longest (strip text) → f.Scannable) →
      ∃ e, read text = .error (.lex e) ∧
        ((∃ s, strip text = signText s) ∧ e = .incomplete (strip text) "expected a digit" ∨
          (¬ ∃ s, strip text = signText s) ∧ ∃ p reason, e = .unexpected (strip text) p reason)) ∧
    (∀ f : Form, f.Longest (strip text) → f.text ≠ strip text →
      read text = .error (if f.Scannable then
        .lex (.unexpected (strip text) f.text.length "trailing characters") else f.readError)) := by
  refine ⟨⟨fun ⟨d, hd⟩ => exists_form_of_read hd,
      fun ⟨f, hf, hread⟩ => ⟨_, (read_of_strip hf).trans (if_pos hread)⟩⟩,
    fun f hf hread => ⟨_, (read_of_strip hf).trans (if_pos hread), ?_, ?_⟩,
    fun f hf hread => (read_of_strip hf).trans (if_neg hread),
    read_refuses, fun f => read_trailing⟩
  · rw [Form.decimal, Decimal.value_ofScaled, neg_sub]
    push_cast
    rfl
  · rw [Form.decimal, Decimal.places_ofScaled]

end

/-- Leading zeros do not count, and the exponent takes one of the two places. A lone sign is too short. -/
theorem read_accepts_literals_comma :
    let _ : DigitLimit := .standard
    (∃ d, read " -04,50E1\n".toList = .ok d ∧ d.value = -45 ∧ (d.places : Int) = 1) ∧
      ∃ e, read ['+'] = .error (.lex e) ∧ e = .incomplete ['+'] "expected a digit" := by
  intro limit
  constructor
  · let f : Form :=
      { sign := some ⟨'-', by decide⟩
        integral := ⟨⟨'0', by decide⟩, [⟨'4', by decide⟩]⟩
        fraction := some (⟨',', by decide⟩, ⟨⟨'5', by decide⟩, [⟨'0', by decide⟩]⟩)
        exponent := some ⟨⟨'E', by decide⟩, none, ⟨⟨'1', by decide⟩, []⟩⟩ }
    obtain ⟨d, hd, hvalue, hplaces⟩ := (read_accepts_literals " -04,50E1\n".toList).2.1 f (by decide) (by decide)
    refine ⟨d, hd, hvalue.trans ?_, hplaces.trans (by decide)⟩
    have hnumeral : numeral (f.integral.list ++ f.fractionDigits) = 450 := by decide
    have hexp : f.power - f.fractionDigits.length = -1 := by decide
    have hsign : signFactor f.sign = -1 := by decide
    rw [hnumeral, hexp, hsign]
    norm_num
  · let plus : Option (Member .sign) := some ⟨'+', by decide⟩
    have hsign : strip ['+'] = signText plus := by decide
    have hnone : ¬ ∃ f : Form, f.text = strip ['+'] := by
      rintro ⟨f, hf⟩
      exact f.not_prefix_signText plus (hf.trans hsign ▸ List.prefix_rfl)
    have hscan : ∀ f : Form, f.Longest (strip ['+']) → f.Scannable := fun f hf =>
      absurd (hsign ▸ hf.starts) (f.not_prefix_signText plus)
    obtain ⟨e, he, ⟨-, hshort⟩ | ⟨hlong, -⟩⟩ := (read_accepts_literals ['+']).2.2.2.1 hnone hscan
    · exact ⟨e, he, hshort⟩
    · exact absurd ⟨plus, hsign⟩ hlong

end Literal

end Reckoner
