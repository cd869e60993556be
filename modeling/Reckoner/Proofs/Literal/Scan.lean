import Reckoner.Proofs.Literal.Form
import Reckoner.Proofs.Scanner.Steps

/-!
# Scanning a literal

The scanner goes through a literal part by part. Each part has a lemma that carries the run past it;
what is left after the last part has to be something that cannot prolong the literal (`Form.Ends`).
Main theorem `run_text`: then the scan consumes the literal and nothing more, and stores its parts, unless
its exponent is too long to become an integer (`Form.Scannable`). A text that is a literal is read as the
literal's number (`read_text`), unless one of its integers is too long.
-/
namespace Reckoner.Literal

open CharClass

variable {V : Type}

/-- Nothing at the start of `rest` prolongs the literal: no digit, and no mark that digits follow and
that the literal has not had yet. -/
structure Form.Ends (f : Form) (rest : List Char) : Prop where
  digit : CharClass.digit.hasSome rest.head? = false
  fraction : f.fraction = none → f.exponent = none → CharClass.point.hasSome rest.head? = true →
    CharClass.digit.hasSome rest[1]? = false
  exponent : f.exponent = none → CharClass.exponent.hasSome rest.head? = true →
    CharClass.digit.hasSome rest[1]? = false ∧
      (CharClass.sign.hasSome rest[1]? = true → CharClass.digit.hasSome rest[2]? = false)

/-- Nothing prolongs a literal at the end of a text. -/
theorem Form.ends_nil (f : Form) : f.Ends [] := ⟨rfl, by simp [hasSome], by simp [hasSome]⟩

/-- No margin is in a literal. -/
theorem Form.not_isMargin (f : Form) : ∀ c ∈ f.text, isMargin c = false := by
  have member {k : CharClass} (h : (k.members.all fun c => decide (isMargin c = false)) = true)
      (m : Member k) : isMargin m.1 = false := forall_has h m.2
  exact f.forall_text (member (by decide)) (member (by decide)) (member (by decide)) (member (by decide))

/-! ## Tokens in progress -/

def entry (key : String) (text : List Char) : Option String × Token V := (some key, partToken text)

/-- A workspace that holds entries, the latest first, and nothing else. -/
def holding (entries : List (Option String × Token V)) : Workspace V := ⟨⟨{}, entries⟩, 0, []⟩

def signEntries (s : Option (Member .sign)) : List (Option String × Token V) :=
  (s.map fun c => entry "sign" [c.1]).toList

def fractionEntries (x : Option (Member .point × Digits)) : List (Option String × Token V) :=
  (x.map fun x => entry "fraction" x.2.text).toList

/-- The entry of an exponent, if there is one, as long as it is not an integer. -/
def exponentEntries (x : Option Exponent) : List (Option String × Token V) :=
  (x.map fun e => entry "exponent" e.number).toList

/-- The entries of a literal when its scan ends, the latest first. -/
def Form.entries (f : Form) : List (Option String × Token V) :=
  exponentEntries f.exponent ++ (fractionEntries f.fraction ++
    (entry "integral" f.integral.text :: signEntries f.sign))

def Form.finalEntries (f : Form) : List (Option String × Token V) :=
  (f.exponent.map fun e => (some "exponent", { lexeme := .made e.value })).toList ++
    (fractionEntries f.fraction ++ (entry "integral" f.integral.text :: signEntries f.sign))

theorem record_finalEntries (f : Form) :
    Opened.record .keyed ⟨{}, f.finalEntries⟩ = f.record (V := V) := by
  obtain ⟨sign, integral, fraction, exponent⟩ := f
  cases sign <;> cases fraction <;> cases exponent <;> rfl

variable {input rest : List Char} {index : Nat} {es : List (Option String × Token V)}

/-! ## What the states do -/

theorem exec_eatThen (s : State) (key : String) (text : List Char) (c : Char) :
    (eatThen s).exec .keyed ⟨input, index, c :: rest⟩ (holding (entry key text :: es)) =
      .ok (.goto s, holding (entry (V := V) key (text ++ [c]) :: es)) := rfl

theorem exec_part (key : String) (next : Script V (Verdict State)) (cursor : Cursor) :
    (part key next).exec .keyed cursor (holding es) =
      next.exec .keyed cursor (holding (entry key [] :: es)) := rfl

theorem exec_peek_one (next : Option Char → Script V (Verdict State)) (w : Workspace V) :
    (Script.peek 1 next).exec .keyed ⟨input, index, rest⟩ w =
      (next rest[1]?).exec .keyed ⟨input, index, rest⟩ w := rfl

theorem exec_peek_two (next : Option Char → Script V (Verdict State)) (w : Workspace V) :
    (Script.peek 2 next).exec .keyed ⟨input, index, rest⟩ w =
      (next rest[2]?).exec .keyed ⟨input, index, rest⟩ w := rfl

/-- The states in which a further digit is eaten. -/
def State.EatsDigits (s : State) : Prop := s = .digits ∨ s = .fractionDigits ∨ s = .exponentDigits

theorem behaviour_of_eatsDigits {s : State} (hs : s.EatsDigits) {c : Char}
    (hc : CharClass.digit.has c = true) : behaviour (V := V) s (some c) = eatThen s := by
  rcases hs with rfl | rfl | rfl <;>
    simp [behaviour, digits, fractionDigits, exponentDigits, hasSome, hc]

theorem behaviour_firstDigit {s : State} (hs : s = .start ∨ s = .firstDigit) (d : Member .digit) :
    behaviour (V := V) s (some d.1) = part "integral" (eatThen .digits) := by
  rcases hs with rfl | rfl <;>
    simp [behaviour, start, firstDigit, hasSome, d.2, has_eq_false (l := .sign) rfl d.2]

/-- Where a scan is after the digits and the fraction. -/
def afterFraction (x : Option (Member .point × Digits)) : State :=
  x.elim .digits fun _ => .fractionDigits

theorem behaviour_afterFraction (x : Option (Member .point × Digits)) {c : Char}
    (hdigit : CharClass.digit.has c = false) (hpoint : point.has c = false) :
    behaviour (V := V) (afterFraction x) (some c) = exponentMark (some c) := by
  cases x with
  | none => simp [afterFraction, behaviour, digits, hasSome, hdigit, hpoint]
  | some x => simp [afterFraction, behaviour, fractionDigits, hasSome, hdigit]

/-- Digits follow the mark of an exponent, so that the mark opens it. -/
theorem exec_exponentMark (e : Exponent) :
    (exponentMark (some e.mark.1)).exec .keyed ⟨input, index, e.mark.1 :: (e.number ++ rest)⟩
      (holding es) = .ok (.goto .exponentSign, holding (entry (V := V) "exponent" [] :: es)) := by
  obtain ⟨mark, sign, ds⟩ := e
  unfold exponentMark
  cases sign with
  | none =>
    have hfollowing : (mark.1 :: (Exponent.number ⟨mark, none, ds⟩ ++ rest))[1]? = some ds.first.1 := rfl
    simp only [hasSome, Option.any_some, mark.2, if_true, exec_peek_one, hfollowing, ds.first.2,
      exec_part]
    rfl
  | some c =>
    have hfollowing : (mark.1 :: (Exponent.number ⟨mark, some c, ds⟩ ++ rest))[1]? = some c.1 := rfl
    have hafterSign :
        (mark.1 :: (Exponent.number ⟨mark, some c, ds⟩ ++ rest))[2]? = some ds.first.1 := rfl
    simp only [hasSome, Option.any_some, mark.2, if_true, exec_peek_one, hfollowing, c.2,
      has_eq_false (l := .digit) rfl c.2, Bool.false_eq_true, if_false, exec_peek_two, hafterSign, ds.first.2,
      exec_part]
    rfl

theorem behaviour_exponentFirstDigit {s : State} (hs : s = .exponentSign ∨ s = .exponentFirstDigit)
    (d : Member .digit) : behaviour (V := V) s (some d.1) = eatThen .exponentDigits := by
  rcases hs with rfl | rfl <;>
    simp [behaviour, exponentSign, exponentFirstDigit, hasSome, d.2, has_eq_false (l := .sign) rfl d.2]

/-- Without digits after it, a mark opens no exponent. -/
theorem exec_exponentMark_finish (w : Workspace V)
    (h : CharClass.exponent.hasSome rest.head? = true → CharClass.digit.hasSome rest[1]? = false ∧
      (CharClass.sign.hasSome rest[1]? = true → CharClass.digit.hasSome rest[2]? = false)) :
    (exponentMark rest.head?).exec .keyed ⟨input, index, rest⟩ w = .ok (.finish, w) := by
  unfold exponentMark
  by_cases hmark : CharClass.exponent.hasSome rest.head? = true
  · obtain ⟨hdigit, hsign⟩ := h hmark
    rw [if_pos hmark, exec_peek_one, hdigit, if_neg Bool.false_ne_true]
    by_cases hs : CharClass.sign.hasSome rest[1]? = true
    · rw [if_pos hs, exec_peek_two, hsign hs, if_neg Bool.false_ne_true]
      rfl
    · rw [if_neg hs]
      rfl
  · rw [if_neg hmark]
    rfl

/-! ## Steps of a run -/

variable [DigitLimit]

theorem call_holding (s : State) :
    scanner.call input index rest s (holding es) =
      (behaviour s rest.head?).exec .keyed ⟨input, index, rest⟩ (holding es) := rfl

/-- A character that is eaten goes to the latest token. -/
theorem runFrom_eat {s next : State} {c : Char}
    (h : behaviour (V := V) s (some c) = eatThen next) (key : String) (text : List Char) :
    scanner.runFrom input (c :: rest) index 0 s (holding (entry key text :: es)) =
      scanner.runFrom input rest (index + 1) 0 next
        (holding (entry (V := V) key (text ++ [c]) :: es)) := by
  have hstep : scanner.call input index (c :: rest) s (holding (entry key text :: es)) =
      .ok (.goto next, holding (entry (V := V) key (text ++ [c]) :: es)) := by
    rw [call_holding, List.head?_cons, h, exec_eatThen]
  exact Scanner.runFrom_goto hstep

/-- A part opens with the character that is eaten. -/
theorem runFrom_open {s next : State} {c : Char} {key : String}
    (h : behaviour (V := V) s (some c) = part key (eatThen next)) :
    scanner.runFrom input (c :: rest) index 0 s (holding es) =
      scanner.runFrom input rest (index + 1) 0 next (holding (entry (V := V) key [c] :: es)) := by
  have hstep : scanner.call input index (c :: rest) s (holding es) =
      .ok (.goto next, holding (entry (V := V) key [c] :: es)) := by
    rw [call_holding, List.head?_cons, h, exec_part, exec_eatThen, List.nil_append]
  exact Scanner.runFrom_goto hstep

/-! ## Part by part -/

theorem runFrom_spelling {s : State} (hs : s.EatsDigits) (key : String) :
    ∀ (ds : List (Member .digit)) (text : List Char) (index : Nat),
      scanner.runFrom input (spelling ds ++ rest) index 0 s (holding (entry key text :: es)) =
        scanner.runFrom input rest (index + ds.length) 0 s
          (holding (entry (V := V) key (text ++ spelling ds) :: es))
  | [], text, index => by simp [spelling]
  | d :: ds, text, index => by
    have hspelling : spelling (d :: ds) = d.1 :: spelling ds := rfl
    rw [hspelling, List.cons_append, runFrom_eat (behaviour_of_eatsDigits hs d.2),
      runFrom_spelling hs key ds, List.length_cons, List.append_assoc, List.singleton_append]
    congr 1
    omega

theorem runFrom_sign (s : Option (Member .sign)) (d : Member .digit) :
    scanner.runFrom input (signText s ++ d.1 :: rest) index 0 .start (holding []) =
      scanner.runFrom input rest (index + (signText s).length + 1) 0 .digits
        (holding (entry (V := V) "integral" [d.1] :: signEntries s)) := by
  cases s with
  | none => exact runFrom_open (behaviour_firstDigit (.inl rfl) d)
  | some c =>
    have hsign : behaviour (V := V) .start (some c.1) = part "sign" (eatThen .firstDigit) := by
      simp [behaviour, start, hasSome, c.2]
    have htext : signText (some c) = [c.1] := rfl
    rw [htext, List.singleton_append, runFrom_open hsign]
    exact runFrom_open (behaviour_firstDigit (.inr rfl) d)

theorem runFrom_fraction (f : Form) :
    scanner.runFrom input (f.fractionText ++ rest) index 0 .digits (holding es) =
      scanner.runFrom input rest (index + f.fractionText.length) 0 (afterFraction f.fraction)
        (holding (fractionEntries (V := V) f.fraction ++ es)) := by
  unfold Form.fractionText
  cases f.fraction with
  | none => rfl
  | some x =>
    obtain ⟨mark, ds⟩ := x
    have hstep : scanner.call input index (mark.1 :: (ds.text ++ rest)) .digits (holding es) =
        .ok (.goto .fractionDigits, holding (entry (V := V) "fraction" [] :: es)) := by
      have hfollowing : (mark.1 :: (ds.text ++ rest))[1]? = some ds.first.1 := rfl
      rw [call_holding, List.head?_cons]
      simp only [behaviour, digits, hasSome, Option.any_some, has_eq_false (l := .digit) rfl mark.2, mark.2,
        Bool.false_eq_true, if_false, if_true, exec_peek_one, hfollowing, ds.first.2, exec_part]
      rfl
    have hindex : index + 1 + ds.list.length = index + (mark.1 :: ds.text).length := by
      simp only [Digits.text, spelling, List.length_cons, List.length_map]
      omega
    simp only [Option.elim_some, List.cons_append]
    rw [Scanner.runFrom_goto hstep, ← hindex]
    exact runFrom_spelling (.inr (.inl rfl)) "fraction" ds.list [] (index + 1)

/-- Where a scan is after the last part. -/
def Form.lastState (f : Form) : State :=
  f.exponent.elim (afterFraction f.fraction) fun _ => .exponentDigits

theorem runFrom_exponentSign (s : Option (Member .sign)) (d : Member .digit) :
    scanner.runFrom input (signText s ++ d.1 :: rest) index 0 .exponentSign
        (holding (entry "exponent" [] :: es)) =
      scanner.runFrom input rest (index + (signText s).length + 1) 0 .exponentDigits
        (holding (entry (V := V) "exponent" (signText s ++ [d.1]) :: es)) := by
  cases s with
  | none => exact runFrom_eat (behaviour_exponentFirstDigit (.inl rfl) d) "exponent" []
  | some c =>
    have hsign : behaviour (V := V) .exponentSign (some c.1) = eatThen .exponentFirstDigit := by
      simp [behaviour, exponentSign, hasSome, c.2]
    have htext : signText (some c) = [c.1] := rfl
    rw [htext, List.singleton_append, runFrom_eat hsign]
    exact runFrom_eat (behaviour_exponentFirstDigit (.inr rfl) d) "exponent" [c.1]

theorem runFrom_exponent (f : Form) :
    scanner.runFrom input (f.exponentText ++ rest) index 0 (afterFraction f.fraction) (holding es) =
      scanner.runFrom input rest (index + f.exponentText.length) 0 f.lastState
        (holding (exponentEntries (V := V) f.exponent ++ es)) := by
  unfold Form.exponentText Form.lastState
  cases f.exponent with
  | none => rfl
  | some e =>
    have hstep : scanner.call input index (e.mark.1 :: (e.number ++ rest)) (afterFraction f.fraction)
        (holding es) = .ok (.goto .exponentSign, holding (entry (V := V) "exponent" [] :: es)) := by
      rw [call_holding, List.head?_cons, behaviour_afterFraction _ (has_eq_false (l := .digit) rfl e.mark.2)
        (has_eq_false (l := .point) rfl e.mark.2)]
      exact exec_exponentMark e
    have hnumber : e.number ++ rest =
        signText e.sign ++ e.digits.first.1 :: (spelling e.digits.more ++ rest) := by
      simp [Exponent.number, Digits.text, Digits.list, spelling]
    have hindex : index + 1 + (signText e.sign).length + 1 + e.digits.more.length =
        index + (e.mark.1 :: e.number).length := by
      simp only [Exponent.number, Digits.text, Digits.list, spelling, List.map_cons, List.length_append,
        List.length_cons, List.length_map]
      omega
    have htext : e.number = signText e.sign ++ [e.digits.first.1] ++ spelling e.digits.more := by
      simp [Exponent.number, Digits.text, Digits.list, spelling]
    simp only [Option.elim_some, List.cons_append]
    rw [Scanner.runFrom_goto hstep, ← hindex, hnumber]
    refine (runFrom_exponentSign e.sign e.digits.first).trans ?_
    rw [runFrom_spelling (.inr (.inr rfl)), ← htext]
    rfl

/-! ## The end -/

theorem call_lastState {f : Form} (h : f.Ends rest) :
    scanner.call input index rest f.lastState (holding es) =
      .ok (.finish, holding (V := V) es) := by
  obtain ⟨hdigit, hfraction, hexponent⟩ := h
  rw [call_holding]
  unfold Form.lastState
  cases hexp : f.exponent with
  | some e =>
    simp only [Option.elim_some, behaviour, exponentDigits, hdigit, Bool.false_eq_true, if_false]
    rfl
  | none =>
    have hfinish : (exponentMark rest.head?).exec .keyed ⟨input, index, rest⟩ (holding es) =
        .ok (.finish, holding (V := V) es) := exec_exponentMark_finish (holding es) (hexponent hexp)
    cases hfrac : f.fraction with
    | some x =>
      simp only [Option.elim_none, Option.elim_some, afterFraction, behaviour, fractionDigits, hdigit,
        Bool.false_eq_true, if_false]
      exact hfinish
    | none =>
      simp only [Option.elim_none, afterFraction, behaviour, digits, hdigit, Bool.false_eq_true,
        if_false]
      by_cases hpoint : CharClass.point.hasSome rest.head? = true
      · rw [if_pos hpoint, exec_peek_one, hfraction hfrac hexp hpoint, if_neg Bool.false_ne_true]
        exact hfinish
      · rw [if_neg hpoint]
        exact hfinish

theorem runFrom_text (f : Form) :
    scanner.runFrom input (f.text ++ rest) 0 0 .start (holding []) =
      scanner.runFrom input rest f.text.length 0 f.lastState (holding (V := V) f.entries) := by
  have htext : f.text ++ rest = signText f.sign ++ f.integral.first.1 ::
      (spelling f.integral.more ++ (f.fractionText ++ (f.exponentText ++ rest))) := by
    simp [f.text_eq]
  have hlength : f.text.length = 0 + (signText f.sign).length + 1 + f.integral.more.length +
      f.fractionText.length + f.exponentText.length := by
    simp only [f.text_eq, spelling, List.length_append, List.length_map, List.length_cons]
    omega
  rw [htext, hlength, runFrom_sign, runFrom_spelling (.inl rfl), runFrom_fraction, runFrom_exponent]
  rfl

/-- The exponent becomes an integer, if it has not too many digits. -/
theorem transform_entries (f : Form) :
    Scanner.transform f.entries transformers = if f.Scannable then .ok (f.finalEntries (V := V))
      else .error (.conversion (.tooLongToRead DigitLimit.most f.exponentWidth)) := by
  obtain ⟨sign, integral, fraction, exponent⟩ := f
  cases exponent with
  | none =>
    have hscannable : Form.Scannable ⟨sign, integral, fraction, none⟩ := .inr (Nat.zero_le _)
    rw [if_pos hscannable]
    cases sign <;> cases fraction <;> rfl
  | some e =>
    have hwidth : Form.exponentWidth ⟨sign, integral, fraction, some e⟩ = e.digits.list.length := rfl
    have hparse := parse_text e.sign e.digits
    rw [← Exponent.number] at hparse
    simp only [Scanner.transform, transformers, Form.entries, exponentEntries, Option.map_some,
      Option.toList_some, List.singleton_append, entry, Opened.changeLatest, if_true, partToken,
      Transformer.integer, Transformer.onChars, hparse, Form.Scannable, hwidth]
    by_cases hallowed : DigitLimit.Allows e.digits.list.length
    · simp only [if_pos hallowed]
      rfl
    · simp only [if_neg hallowed]
      rfl

/-- How a scan of a literal ends that is not prolonged. -/
theorem succeed_entries (f : Form) (n : Nat) :
    scanner.succeed input n (holding f.entries) =
      if f.Scannable then .ok ⟨[.tokenized input n], .ok ⟨f.record (V := V), n⟩⟩
      else .error (.conversion (.tooLongToRead DigitLimit.most f.exponentWidth)) := by
  have htransform := transform_entries (V := V) f
  rw [← show (scanner (V := V)).transformers = transformers from rfl] at htransform
  simp only [Scanner.succeed, holding, htransform]
  by_cases hscannable : f.Scannable
  · simp only [if_pos hscannable, bind, Except.bind, pure, Except.pure]
    rw [← record_finalEntries]
    rfl
  · simp only [if_neg hscannable, bind, Except.bind]

/-- A literal that nothing prolongs is scanned to its end. -/
theorem run_text {f : Form} (h : f.Ends rest) :
    scanner.run (f.text ++ rest) =
      if f.Scannable then
        .ok ⟨[.tokenized (f.text ++ rest) f.text.length], .ok ⟨f.record (V := V), f.text.length⟩⟩
      else .error (.conversion (.tooLongToRead DigitLimit.most f.exponentWidth)) := by
  have hrun : (scanner (V := V)).run (f.text ++ rest) =
      scanner.runFrom (f.text ++ rest) (f.text ++ rest) 0 0 .start (holding []) := rfl
  rw [hrun, runFrom_text, Scanner.runFrom_finish (call_lastState h), succeed_entries]

/-! ## A whole text -/

/-- A literal by itself is scanned to its end. -/
theorem run_text_alone (f : Form) :
    scanner.run f.text =
      if f.Scannable then
        .ok ⟨[.tokenized f.text f.text.length], .ok ⟨f.record (V := V), f.text.length⟩⟩
      else .error (.conversion (.tooLongToRead DigitLimit.most f.exponentWidth)) := by
  have hrun := run_text (V := V) f.ends_nil
  rwa [List.append_nil] at hrun

/-- What a text that is a literal is read as. -/
theorem read_text (f : Form) : read f.text = if f.Readable then .ok f.decimal else .error f.readError := by
  rw [read, strip, trim_eq_self f.not_isMargin]
  by_cases hscannable : f.Scannable
  · have hparts : partsOf f.text = .ok f.parts := by
      simp only [partsOf, run_text_alone, if_pos hscannable, if_true, Form.ofRecord_record]
    rw [hparts, Form.readError, if_pos hscannable]
    refine f.toDecimal_parts.trans (if_congr ?_ rfl rfl)
    exact (and_iff_right hscannable).symm
  · have hparts : partsOf f.text =
        .error (.misuse (.conversion (.tooLongToRead DigitLimit.most f.exponentWidth))) := by
      simp only [partsOf, run_text_alone, if_neg hscannable]
    rw [hparts, Form.readError, if_neg hscannable, if_neg fun h => hscannable h.1]
    rfl

end Reckoner.Literal
