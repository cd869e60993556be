import Reckoner.Proofs.Evaluation.Failure
import Reckoner.Proofs.Expression.Reading
import Reckoner.Proofs.Postorder.Balance

/-!
# Containment of errors

What can go wrong with an expression is known in advance. A text is an expression unless its brackets
do not balance: the lexer takes every text, literals are numbers, and operators are in the table. Only
the runtime's limit on digits can come in between (`parse_cases`). An evaluation has a value or one of
the errors of its own, whatever is bound; an operation's error is passed on if it is stated in these
terms, and wrapped otherwise. Main theorem `errors_contained`.
-/
namespace Reckoner.Expression

open Lexer Evaluation

theorem hasRole_symbol (s : Symbol) : Postorder.HasRole s := by
  cases s with
  | number f => exact .inl rfl
  | name n => cases hn : n.function? <;> simp [Postorder.HasRole, Roles.isOperand, Roles.isFunction, hn]
  | operator c =>
    obtain ⟨op, hop⟩ := Option.isSome_iff_exists.1 c.2
    exact .inr (.inr (.inl ⟨op.precedence, by simp [Roles.precedence?, hop]⟩))
  | separator c => simp [Postorder.HasRole, Roles.separates]
  | bracket c => cases hc : CharClass.closing.has c.1 <;>
      simp [Postorder.HasRole, Roles.opens, Roles.closes, hc]

variable {V E : Type} [OfDecimal V] [DigitLimit]

/-- A text is an expression, unless its brackets do not balance or a literal in it has too many digits. -/
theorem parse_cases (text : List Char) : (∃ x : Expression V, parse text = .ok x) ∨
    (∃ t, parse (V := V) text = .error (.order (.unbalanced t)) ∨
      parse (V := V) text = .error (.order (.unclosed t))) ∨
    ∃ (f : Literal.Form) (before after : List Char), text = before ++ f.text ++ after ∧ ¬ f.Readable ∧
      parse (V := V) text = .error (.read f.readError) := by
  obtain ⟨ss, hs⟩ := exists_cut true text
  by_cases hread : ∀ s ∈ ss, s.Readable
  · have hroles : ∀ t ∈ ss.map (Symbol.valued (V := V)), Postorder.HasRole t := by
      intro t ht
      obtain ⟨s, _, rfl⟩ := List.mem_map.1 ht
      exact (hasRole_symbol s).map Symbol.keepsRoles_valued
    rw [parse_cut hs hread]
    rcases Postorder.ofInfix_cases hroles with ⟨ts, h⟩ | ⟨t, h | h⟩
    · exact .inl ⟨⟨some text, ts⟩, by rw [h]; rfl⟩
    · exact .inr (.inl ⟨t, .inl (by rw [h]; rfl)⟩)
    · exact .inr (.inl ⟨t, .inr (by rw [h]; rfl)⟩)
  · obtain ⟨f, hmem, hf, hfail⟩ := parse_cut_overlong (V := V) hs hread
    obtain ⟨before, after, htext⟩ := hs.exists_around _ hmem
    exact .inr (.inr ⟨f, before, after, htext, hf, hfail⟩)

/-- **Containment of errors.** A text is read, or its brackets do not balance, or a literal in it has more
digits than the runtime's limit allows, if there is one. Evaluation, of any expression and with any
bindings, has a value or fails with an error of its own, unless an operation fails in the terms of
expressions: just then its error is passed on as it is. Any other failure of an operation, and nothing
else, is wrapped as the cause of an error that names the operation. -/
theorem errors_contained [Arithmetic V E] :
    (∀ text, (∃ x : Expression V, parse text = .ok x) ∨
      (∃ t, parse (V := V) text = .error (.order (.unbalanced t)) ∨
        parse (V := V) text = .error (.order (.unclosed t))) ∨
      ∃ (f : Literal.Form) (before after : List Char), text = before ++ f.text ++ after ∧ ¬ f.Readable ∧
        parse (V := V) text = .error (.read f.readError)) ∧
    ∀ (x : Expression V) (bindings : List Char → Option V),
      ((∃ v, x.evaluate bindings = .ok v) ∨
        (∃ err, x.evaluate bindings = .error err ∧ ∀ cause, err ≠ .raised cause) ∨
        ∃ op cause, CarriesOut bindings op (.error (.own cause)) [] x.tokens ∧
          x.evaluate bindings = .error (.raised cause)) ∧
      (∀ cause, x.evaluate bindings = .error (.raised cause) ↔
        ∃ op, CarriesOut bindings op (.error (.own cause)) [] x.tokens) ∧
      ∀ op cause, x.evaluate bindings = .error (.cannotApply op cause) ↔
        CarriesOut bindings op (.error (.foreign cause)) [] x.tokens := by
  refine ⟨parse_cases, fun x bindings => ?_⟩
  have raised (cause : E) : x.evaluate bindings = .error (.raised cause) ↔
      ∃ op, CarriesOut bindings op (.error (.own cause)) [] x.tokens := by
    rw [Expression.evaluate, evaluate_eq_error_iff rfl]
    simp only [ofFailure_eq_raised_iff, exists_eq_right]
  refine ⟨?_, raised, fun op cause => ?_⟩
  · cases h : x.evaluate bindings with
    | ok v => exact .inl ⟨v, rfl⟩
    | error err =>
      by_cases hraised : ∃ cause, err = .raised cause
      · obtain ⟨cause, rfl⟩ := hraised
        obtain ⟨op, hop⟩ := (raised cause).1 h
        exact .inr (.inr ⟨op, cause, hop, rfl⟩)
      · exact .inr (.inl ⟨err, rfl, not_exists.1 hraised⟩)
  · rw [Expression.evaluate, evaluate_eq_error_iff rfl]
    constructor
    · rintro ⟨op', f, hout, hf⟩
      obtain ⟨rfl, rfl⟩ := ofFailure_eq_cannotApply_iff.1 hf
      exact hout
    · exact fun hout => ⟨op, _, hout, rfl⟩

end Reckoner.Expression
