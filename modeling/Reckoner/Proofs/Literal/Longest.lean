import Reckoner.Proofs.Literal.Scan

/-!
# The longest literal

A scan stops where nothing prolongs what it has read (`Form.Ends`). A literal that is the longest at
the start of a text has such an end, since whatever could prolong it would make a longer literal
(`Form.Longest.ends`). Main theorem `run_finds_longest`: a scan finds the longest literal whenever
there is one, and otherwise fails on the first character that is missing or wrong. An exponent that is too
long to become an integer stops it from returning at all.
-/
namespace Reckoner

namespace CharClass

theorem exists_of_hasSome {k : CharClass} {c : Option Char} (h : k.hasSome c = true) :
    ∃ m : Member k, c = some m.1 := by
  cases c with
  | none => simp [hasSome] at h
  | some c => exact ⟨⟨c, h⟩, rfl⟩

theorem exists_cons_of_hasSome {k : CharClass} {text : List Char} (h : k.hasSome text.head? = true) :
    ∃ (m : Member k) (rest : List Char), text = m.1 :: rest := by
  obtain ⟨m, hm⟩ := exists_of_hasSome h
  obtain ⟨rest, rfl⟩ := List.head?_eq_some_iff.1 hm
  exact ⟨m, rest, rfl⟩

end CharClass

namespace Literal

open CharClass

/-- The literal starts the text, and no longer one does. -/
structure Form.Longest (f : Form) (text : List Char) : Prop where
  starts : f.text <+: text
  longest : ∀ g : Form, g.text <+: text → g.text.length ≤ f.text.length

/-- Where a literal starts the text, a longest one does. -/
theorem exists_longest {text : List Char} {f : Form} (h : f.text <+: text) :
    ∃ g : Form, g.Longest text := by
  have search : ∀ (n : Nat) (g : Form), g.text <+: text → text.length ≤ g.text.length + n →
      ∃ g : Form, g.Longest text := by
    intro n
    induction n with
    | zero =>
      intro g hg hn
      exact ⟨g, hg, fun g' hg' => hg'.length_le.trans hn⟩
    | succ n ih =>
      intro g hg hn
      by_cases hlongest : ∀ g' : Form, g'.text <+: text → g'.text.length ≤ g.text.length
      · exact ⟨g, hg, hlongest⟩
      · push Not at hlongest
        obtain ⟨g', hg', hlt⟩ := hlongest
        exact ih g' hg' (by omega)
  exact search text.length f h (by omega)

/-! ## Prolonging a literal -/

namespace Form

variable {f : Form} {rest : List Char}

/-- The literal with one more digit in its last part. -/
def addDigit (f : Form) (d : Member .digit) : Form :=
  match f.exponent, f.fraction with
  | some e, _ => { f with exponent := some { e with digits := e.digits.add d } }
  | none, some (mark, ds) => { f with fraction := some (mark, ds.add d) }
  | none, none => { f with integral := f.integral.add d }

theorem text_addDigit (f : Form) (d : Member .digit) : (f.addDigit d).text = f.text ++ [d.1] := by
  obtain ⟨sign, integral, fraction, exponent⟩ := f
  cases exponent <;> cases fraction <;>
    simp [addDigit, text, fractionText, exponentText, Exponent.number, Digits.text_add]

theorem text_addFraction (hf : f.fraction = none) (he : f.exponent = none) (mark : Member .point)
    (d : Member .digit) : { f with fraction := some (mark, ⟨d, []⟩) }.text = f.text ++ [mark.1, d.1] := by
  simp [text, fractionText, exponentText, hf, he, Digits.text, Digits.list, spelling]

theorem text_addExponent (he : f.exponent = none) (mark : Member .exponent)
    (s : Option (Member .sign)) (d : Member .digit) :
    { f with exponent := some ⟨mark, s, ⟨d, []⟩⟩ }.text = f.text ++ mark.1 :: (signText s ++ [d.1]) := by
  simp [text, fractionText, exponentText, he, Exponent.number, Digits.text, Digits.list, spelling]

/-- What follows a longest literal does not make a longer one. -/
theorem Longest.not_prolonged (h : f.Longest (f.text ++ rest)) (g : Form) {c : Char}
    {more : List Char} (hg : g.text = f.text ++ c :: more) : ¬ c :: more <+: rest := by
  intro hmore
  have hle := h.longest g (by rw [hg]; exact (List.prefix_append_right_inj _).2 hmore)
  rw [hg, List.length_append, List.length_cons] at hle
  omega

/-- Nothing prolongs a longest literal. -/
theorem Longest.ends (h : f.Longest (f.text ++ rest)) : f.Ends rest := by
  refine ⟨?_, fun hf he hpoint => ?_, fun he hmark => ?_⟩
  · rw [Bool.eq_false_iff]
    intro hdigit
    obtain ⟨d, hd⟩ := exists_of_hasSome hdigit
    obtain ⟨rest, rfl⟩ := List.head?_eq_some_iff.1 hd
    exact h.not_prolonged _ (f.text_addDigit d) ⟨rest, rfl⟩
  · rw [Bool.eq_false_iff]
    intro hdigit
    obtain ⟨mark, hm⟩ := exists_of_hasSome hpoint
    obtain ⟨rest, rfl⟩ := List.head?_eq_some_iff.1 hm
    obtain ⟨d, hd⟩ := exists_of_hasSome hdigit
    rw [List.getElem?_cons_succ, ← List.head?_eq_getElem?] at hd
    obtain ⟨rest, rfl⟩ := List.head?_eq_some_iff.1 hd
    exact h.not_prolonged _ (text_addFraction hf he mark d) ⟨rest, rfl⟩
  · obtain ⟨mark, hm⟩ := exists_of_hasSome hmark
    obtain ⟨rest, rfl⟩ := List.head?_eq_some_iff.1 hm
    simp only [Bool.eq_false_iff, List.getElem?_cons_succ, ← List.head?_eq_getElem?]
    refine ⟨fun hdigit => ?_, fun hsign hdigit => ?_⟩
    · obtain ⟨d, hd⟩ := exists_of_hasSome hdigit
      obtain ⟨rest, rfl⟩ := List.head?_eq_some_iff.1 hd
      exact h.not_prolonged _ (text_addExponent he mark none d) ⟨rest, rfl⟩
    · obtain ⟨s, hs⟩ := exists_of_hasSome hsign
      obtain ⟨rest, rfl⟩ := List.head?_eq_some_iff.1 hs
      obtain ⟨d, hd⟩ := exists_of_hasSome hdigit
      rw [List.getElem?_cons_succ, ← List.head?_eq_getElem?] at hd
      obtain ⟨rest, rfl⟩ := List.head?_eq_some_iff.1 hd
      exact h.not_prolonged _ (text_addExponent he mark (some s) d) ⟨rest, rfl⟩

end Form

/-! ## Where no literal starts -/

variable {V : Type} {text : List Char}

/-- A sign, if there is one, and a digit are a literal already. -/
theorem text_singleDigit (s : Option (Member .sign)) (d : Member .digit) :
    Form.text ⟨s, ⟨d, []⟩, none, none⟩ = signText s ++ [d.1] := by
  simp [Form.text, Form.fractionText, Form.exponentText, Digits.text, Digits.list, spelling]

theorem starts_of_digit (s : Option (Member .sign)) (d : Member .digit) (rest : List Char) :
    ∃ f : Form, f.text <+: signText s ++ d.1 :: rest :=
  ⟨⟨s, ⟨d, []⟩, none, none⟩, rest, by simp [text_singleDigit]⟩

/-- A sign starts no literal unless a digit follows it. -/
theorem not_starts_of_sign (c : Member .sign) {rest : List Char}
    (h : CharClass.digit.hasSome rest.head? = false) (f : Form) : ¬ f.text <+: c.1 :: rest := by
  rintro ⟨tail, htail⟩
  rw [f.text_eq] at htail
  cases hs : f.sign with
  | none =>
    have hc : f.integral.first.1 = c.1 := by simpa [hs, signText] using congrArg List.head? htail
    have hdigit := has_eq_false (l := .digit) rfl c.2
    rw [← hc, f.integral.first.2] at hdigit
    cases hdigit
  | some s =>
    obtain ⟨_, rfl⟩ : c.1 = s.1 ∧ rest = _ := by simpa [hs, signText, eq_comm] using htail
    simp [hasSome, f.integral.first.2] at h

theorem behaviour_start_sign (c : Member .sign) :
    behaviour (V := V) .start (some c.1) = part "sign" (eatThen .firstDigit) := by
  simp [behaviour, start, hasSome, c.2]

theorem behaviour_start_of_not_sign {c : Option Char} (h : CharClass.sign.hasSome c = false) :
    behaviour (V := V) .start c = behaviour .firstDigit c := by
  simp [behaviour, start, h]

theorem behaviour_firstDigit_of_not_digit {c : Option Char} (h : CharClass.digit.hasSome c = false) :
    behaviour (V := V) .firstDigit c = .done (.fail "expected a digit") := by
  simp [behaviour, firstDigit, h]

section

variable [DigitLimit]

/-- Where the first digit is missing, the text ends or has another character. -/
theorem runFrom_firstDigit_fail (input : List Char) {rest : List Char} (index : Nat)
    (es : List (Option String × Token V)) (h : CharClass.digit.hasSome rest.head? = false) :
    scanner.runFrom input rest index 0 .firstDigit (holding es) =
      .ok ⟨[], .error (if rest = [] then .incomplete input "expected a digit"
        else .unexpected input index "expected a digit")⟩ := by
  have hcall : scanner.call input index rest .firstDigit (holding es) =
      .ok (.fail "expected a digit", holding es) := by
    rw [call_holding, behaviour_firstDigit_of_not_digit h]
    rfl
  cases rest with
  | nil => exact Scanner.runFrom_incomplete hcall
  | cons c rest => exact Scanner.runFrom_fail hcall

/-- Without a literal, the scan fails at the end of the text if the text is at most a sign, and on
its first or second character otherwise. -/
theorem run_of_not_starts (h : ∀ f : Form, ¬ f.text <+: text) :
    ∃ e, (scanner (V := V)).run text = .ok ⟨[], .error e⟩ ∧
      ((∃ s, text = signText s) ∧ e = .incomplete text "expected a digit" ∨
        (¬ ∃ s, text = signText s) ∧ ∃ p ≤ 1, e = .unexpected text p "expected a digit") := by
  have hrun : (scanner (V := V)).run text = scanner.runFrom text text 0 0 .start (holding []) := rfl
  rw [hrun]
  have hdigit (s : Option (Member .sign)) (rest : List Char) (htext : text = signText s ++ rest) :
      CharClass.digit.hasSome rest.head? = false := by
    rw [Bool.eq_false_iff]
    intro hc
    obtain ⟨d, hd⟩ := exists_of_hasSome hc
    obtain ⟨rest, rfl⟩ := List.head?_eq_some_iff.1 hd
    obtain ⟨f, hf⟩ := starts_of_digit s d rest
    exact h f (htext ▸ hf)
  by_cases hsign : CharClass.sign.hasSome text.head? = true
  · obtain ⟨c, hc⟩ := exists_of_hasSome hsign
    obtain ⟨rest, rfl⟩ := List.head?_eq_some_iff.1 hc
    have hfail := runFrom_firstDigit_fail (V := V) (c.1 :: rest) 1 [entry "sign" [c.1]]
      (hdigit (some c) rest rfl)
    refine ⟨_, (runFrom_open (behaviour_start_sign c)).trans hfail, ?_⟩
    by_cases hrest : rest = []
    · exact .inl ⟨⟨some c, by simp [signText, hrest]⟩, by rw [if_pos hrest]⟩
    · refine .inr ⟨?_, 1, Nat.le_refl 1, by rw [if_neg hrest]⟩
      rintro ⟨_ | s, hs⟩ <;> simp [signText, hrest] at hs
  · rw [Bool.not_eq_true] at hsign
    have hcongr : scanner.runFrom text text 0 0 .start (holding []) =
        scanner.runFrom (V := V) text text 0 0 .firstDigit (holding []) :=
      Scanner.runFrom_congr (by rw [call_holding, call_holding, behaviour_start_of_not_sign hsign])
    refine ⟨_, hcongr.trans (runFrom_firstDigit_fail text 0 [] (hdigit none text rfl)), ?_⟩
    by_cases htext : text = []
    · exact .inl ⟨⟨none, htext⟩, by rw [if_pos htext]⟩
    · refine .inr ⟨?_, 0, Nat.zero_le 1, by rw [if_neg htext]⟩
      rintro ⟨_ | s, hs⟩
      · exact htext hs
      · simp [hs, signText, hasSome, s.2] at hsign

/-! ## Every text -/

/-- A longest literal is what a scan finds. -/
theorem run_of_longest {f : Form} (h : f.Longest text) :
    (scanner (V := V)).run text =
      if f.Scannable then .ok ⟨[.tokenized text f.text.length], .ok ⟨f.record, f.text.length⟩⟩
      else .error (.conversion (.tooLongToRead DigitLimit.most f.exponentWidth)) := by
  obtain ⟨rest, rfl⟩ := h.starts
  exact run_text h.ends

/-- A scan succeeds exactly where the longest literal that starts the text has no overlong exponent. -/
theorem run_succeeds_iff :
    (∃ o t, (scanner (V := V)).run text = .ok o ∧ o.result = .ok t) ↔
      ∃ f : Form, f.Longest text ∧ f.Scannable := by
  constructor
  · rintro ⟨o, t, hrun, ht⟩
    by_cases h : ∃ f : Form, f.text <+: text
    · obtain ⟨f, hf⟩ := exists_longest h.choose_spec
      refine ⟨f, hf, ?_⟩
      by_contra hlong
      rw [run_of_longest hf, if_neg hlong] at hrun
      cases hrun
    · push Not at h
      obtain ⟨e, hfail, _⟩ := run_of_not_starts (V := V) h
      rw [hrun] at hfail
      cases hfail
      cases ht
  · rintro ⟨f, hf, hscannable⟩
    exact ⟨_, _, (run_of_longest hf).trans (if_pos hscannable), rfl⟩

/-- **Longest match.** A scan of any text succeeds just if a literal starts it, unless the exponent of the
longest such literal has too many digits. That literal is what the scan consumes, and the parts of it are its
tokens; with too many digits in the exponent, the scan does not return. Where no literal starts the text it
fails: for want of more text if there is at most a sign, on one of the first two characters else. So once a
first digit has been read, nothing but an overlong exponent can keep the scan from succeeding. -/
theorem run_finds_longest (text : List Char) :
    ((∃ o t, (scanner (V := V)).run text = .ok o ∧ o.result = .ok t) ↔
      ∃ f : Form, f.Longest text ∧ f.Scannable) ∧
    ((∃ f : Form, f.text <+: text) → ∃ f : Form, f.Longest text) ∧
    (∀ f : Form, f.Longest text → ∃ log,
      (scanner (V := V)).run text = if f.Scannable then .ok ⟨log, .ok ⟨f.record, f.text.length⟩⟩
        else .error (.conversion (.tooLongToRead DigitLimit.most f.exponentWidth))) ∧
    ((∀ f : Form, ¬ f.text <+: text) → ∃ e, (scanner (V := V)).run text = .ok ⟨[], .error e⟩ ∧
      ((∃ s, text = signText s) ∧ e = .incomplete text "expected a digit" ∨
        (¬ ∃ s, text = signText s) ∧ ∃ p ≤ 1, e = .unexpected text p "expected a digit")) ∧
    ∀ (s : Option (Member .sign)) (d : Member .digit) (rest : List Char),
      text = signText s ++ d.1 :: rest → ∃ f : Form, f.Longest text ∧
        (f.Scannable → ∃ o t, (scanner (V := V)).run text = .ok o ∧ o.result = .ok t) := by
  refine ⟨run_succeeds_iff, fun ⟨f, hf⟩ => exists_longest hf, fun f hf => ⟨_, run_of_longest hf⟩,
    run_of_not_starts, ?_⟩
  rintro s d rest rfl
  obtain ⟨f, hf⟩ := starts_of_digit s d rest
  obtain ⟨g, hg⟩ := exists_longest hf
  exact ⟨g, hg, fun hscannable => run_succeeds_iff.2 ⟨g, hg, hscannable⟩⟩

end

end Literal

end Reckoner
