import Reckoner.Proofs.Evaluation.Failure
import Reckoner.Proofs.Evaluation.Stack
import Reckoner.Proofs.Expression.Reading
import Reckoner.Proofs.Formula.Arity

/-!
# Calls with too many or too few arguments

Nobody counts the arguments of a call: its function takes what it needs from the one stack on which the
values of the whole expression lie. So a wrong call shows in the height of this stack only
(`depthAfter_of_steps`, `depthAfter_of_error`), and it does not show if other calls make up for it,
as in `max(log(1; 2))` (`wrong_calls_cancel`). Main theorem `wrong_call_fails`: otherwise it is an
error.
-/
namespace Reckoner

open Lexer Evaluation Formula

/-- How many values a symbol takes from the stack. -/
def Lexer.Symbol.arity : Symbol → Nat
  | .operator _ => 2
  | .name n => (n.function?.map Operation.arity).getD 0
  | _ => 0

theorem Lexer.Symbol.fitsRoles_arity : FitsRoles Symbol.arity where
  operand {s} h := by
    cases s with
    | name n => cases hn : n.function? <;> simp_all [Roles.isOperand, arity]
    | _ => simp_all [Roles.isOperand, arity]
  operator {s p} h := by
    cases s <;> simp_all [Roles.precedence?, arity]

/-- How many values an instruction takes from the stack. -/
def Evaluation.Instruction.arity {V : Type} : Instruction V → Nat
  | .operand _ => 0
  | .operation op => op.arity

namespace Expression

variable {V E : Type} [OfDecimal V] {bindings : List Char → Option V}

theorem arity_of_instruction? {s : Symbol} {i : Instruction V}
    (h : instruction? bindings s.valued = some i) : i.arity = s.arity := by
  cases s with
  | number f =>
    cases h
    rfl
  | name n =>
    cases hn : n.function? with
    | none =>
      have hs : (Symbol.name n).valued = Token.spelled (V := V) .variable n.text := by
        simp [Symbol.valued, Symbol.token, hn]
      rw [hs] at h
      obtain ⟨v, -, rfl⟩ := Option.map_eq_some_iff.1 h
      simp [Instruction.arity, Symbol.arity, hn]
    | some op =>
      have hs : (Symbol.name n).valued = Token.spelled (V := V) .function n.text := by
        simp [Symbol.valued, Symbol.token, hn]
      rw [hs] at h
      obtain ⟨op', hop, rfl⟩ := Option.map_eq_some_iff.1 h
      obtain rfl : op = op' := Option.some.inj (hn.symm.trans hop)
      simp [Instruction.arity, Symbol.arity, hn]
  | operator c =>
    obtain ⟨op, -, rfl⟩ := Option.map_eq_some_iff.1 h
    rfl
  | separator c => cases h
  | bracket c => cases h

variable [Arithmetic V E]

/-! ## Heights -/

theorem length_step {s : Symbol} {stack stack' : List V} (h : step bindings stack s.valued = .ok stack') :
    s.arity ≤ stack.length ∧ stack'.length = stack.length - s.arity + 1 := by
  cases hi : instruction? bindings (s.valued (V := V)) with
  | none =>
    obtain ⟨err, hstep, -⟩ := step_of_no_instruction hi stack
    rw [h] at hstep
    cases hstep
  | some i =>
    rw [step_eq_perform hi] at h
    rw [← arity_of_instruction? hi]
    cases i with
    | operand v =>
      cases h
      simp [Instruction.arity]
    | operation op => exact length_apply h

theorem length_lt_of_step {s : Symbol} {stack : List V} {err : EvalError E}
    (h : step bindings stack s.valued = .error err) (herr : err.ofStack = true) :
    stack.length < s.arity := by
  cases hi : instruction? bindings (s.valued (V := V)) with
  | none =>
    obtain ⟨err', hstep, -, herr'⟩ := step_of_no_instruction hi stack
    rw [h] at hstep
    cases hstep
    rw [herr] at herr'
    cases herr'
  | some i =>
    rw [step_eq_perform hi] at h
    rw [← arity_of_instruction? hi]
    cases i with
    | operand v => cases h
    | operation op => exact length_lt_of_apply h herr

/-- The stack is as high as the symbols' arities say. -/
theorem depthAfter_of_steps : ∀ {ss : List Symbol} {stack stack' : List V},
    steps bindings stack (ss.map Symbol.valued) = .ok stack' →
      depthAfter Symbol.arity stack.length ss = some stack'.length
  | [], stack, stack', h => by
    cases h
    rfl
  | s :: ss, stack, stack', h => by
    obtain ⟨next, hstep, h⟩ := exists_step h
    obtain ⟨hle, hlength⟩ := length_step hstep
    rw [depthAfter, if_pos hle, ← hlength]
    exact depthAfter_of_steps h

theorem depthAfter_of_error {err : EvalError E} (herr : err.ofStack = true) :
    ∀ {ss : List Symbol} {stack : List V}, steps bindings stack (ss.map Symbol.valued) = .error err →
      depthAfter Symbol.arity stack.length ss = none
  | [], stack, h => by cases h
  | s :: ss, stack, h => by
    rcases steps_error_cases h with hstep | ⟨next, hstep, h⟩
    · exact if_neg (Nat.not_le_of_lt (length_lt_of_step hstep herr))
    · obtain ⟨hle, hlength⟩ := length_step hstep
      rw [depthAfter, if_pos hle, ← hlength]
      exact depthAfter_of_error herr h

/-! ## Wrong calls -/

/-- One value is left just if the calls make up for each other. -/
theorem cancels_iff {e : Formula Symbol} {b : Bool} {ss : List Symbol} (he : e.Renders b ss) :
    e.Cancels Symbol.arity ↔ depthAfter Symbol.arity 0 e.postorder = some 1 := by
  have hnet := net_postorder Symbol.fitsRoles_arity he
  constructor
  · rintro ⟨hexcess, hsome⟩
    obtain ⟨depth, hdepth⟩ := Option.isSome_iff_exists.1 hsome
    have hvalue := eq_of_depthAfter hdepth
    rw [hdepth]
    congr 1
    omega
  · intro hdepth
    have hvalue := eq_of_depthAfter hdepth
    exact ⟨by omega, by rw [hdepth]; rfl⟩

/-- Symbols have a value only if they leave one. -/
theorem depthAfter_of_evaluate {ss : List Symbol} {v : V}
    (h : Evaluation.evaluate bindings (ss.map Symbol.valued) = .ok v) :
    depthAfter Symbol.arity 0 ss = some 1 :=
  depthAfter_of_steps (steps_of_evaluate h)

/-- Symbols that leave one value never fail on account of the stack. -/
theorem not_ofStack_of_evaluate {ss : List Symbol} (hone : depthAfter Symbol.arity 0 ss = some 1)
    {err : EvalError E} (h : Evaluation.evaluate bindings (ss.map Symbol.valued) = .error err) :
    err.ofStack = false := by
  rcases evaluate_error_cases h with hsteps | ⟨stack, hsteps, hlength, -⟩
  · refine Bool.eq_false_iff.2 fun herr => ?_
    have hnone : depthAfter Symbol.arity 0 ss = none := depthAfter_of_error herr hsteps
    rw [hnone] at hone
    cases hone
  · have hdepth : depthAfter Symbol.arity 0 ss = some stack.length := depthAfter_of_steps hsteps
    rw [hone] at hdepth
    exact absurd (Option.some.inj hdepth).symm hlength

/-- **Wrong calls.** An expression with a call that has too many or too few arguments has no value,
unless the calls make up for each other: some have too many and some too few, none are left all told,
and in postorder no symbol lacks operands. If they do, no evaluation fails on account of the stack. Where a
literal has too many digits, there is no expression in the first place. -/
theorem wrong_call_fails [DigitLimit] {e : Formula Symbol} {b : Bool} {ss : List Symbol} {text : List Char}
    (he : e.Renders b ss) (hs : Cut true ss text) :
    ((∀ s ∈ ss, s.Readable) → ∃ x : Expression V, parse text = .ok x ∧ ∀ bindings : List Char → Option V,
      ((∃ c ∈ e.calls, c.2 ≠ c.1.arity) → (∃ err, x.evaluate bindings = .error err) ∨
        e.Cancels Symbol.arity ∧ (∃ c ∈ e.calls, c.1.arity < c.2) ∧ ∃ c ∈ e.calls, c.2 < c.1.arity) ∧
      (e.Cancels Symbol.arity → ∀ err, x.evaluate bindings = .error err → err.ofStack = false)) ∧
    ((¬ ∀ s ∈ ss, s.Readable) → ∃ f, Symbol.number f ∈ ss ∧ ¬ f.Readable ∧
      parse (V := V) text = .error (.read f.readError)) := by
  refine ⟨fun hread => ?_, parse_cut_overlong hs⟩
  refine ⟨_, parse_of_cut he hs hread, fun bindings => ⟨fun hwrong => ?_, fun hcancels err herror => ?_⟩⟩
  · cases h : Expression.evaluate ⟨some text, e.postorder.map Symbol.valued⟩ bindings with
    | error err => exact .inl ⟨err, rfl⟩
    | ok v =>
      have hcancels := (cancels_iff he).2 (depthAfter_of_evaluate h)
      exact .inr ⟨hcancels, exists_more_and_fewer hcancels.1 hwrong⟩
  · exact not_ofStack_of_evaluate ((cancels_iff he).1 hcancels) herror

def ofDigit (c : Char) (h : CharClass.digit.has c = true) : Symbol :=
  .number ⟨none, ⟨⟨c, h⟩, []⟩, none, none⟩

theorem stands_ofDigit {c d : Char} (h : CharClass.digit.has c = true) {due : Bool} {rest : List Char}
    (hd : (CharClass.digit.has d || CharClass.point.has d || CharClass.exponent.has d) = false) :
    (ofDigit c h).Stands due (d :: rest) := by
  simp only [Bool.or_eq_false_iff] at hd
  refine ⟨⟨hd.1.1, ?_, ?_⟩, fun hsign => by cases hsign⟩
  · simp [CharClass.hasSome, hd.1.2]
  · simp [CharClass.hasSome, hd.2]

def logSymbol : Symbol := .name ⟨'l', ['o', 'g'], rfl, by decide⟩

def logOfTwo : Formula Symbol := .call logSymbol [.operand (ofDigit '1' rfl), .operand (ofDigit '2' rfl)]

def logOfTwoSymbols : List Symbol :=
  [logSymbol, .bracket ⟨'(', rfl⟩, ofDigit '1' rfl, .separator ⟨';', rfl⟩, ofDigit '2' rfl,
    .bracket ⟨')', rfl⟩]

theorem renders_logOfTwo : logOfTwo.Renders false logOfTwoSymbols := by
  have one : (Formula.operand (ofDigit '1' rfl)).Renders false [ofDigit '1' rfl] := .operand rfl
  have two : (Formula.operand (ofDigit '2' rfl)).Renders false [ofDigit '2' rfl] := .operand rfl
  exact .call (f := logSymbol) (o := .bracket ⟨'(', rfl⟩) (c := .bracket ⟨')', rfl⟩) rfl rfl rfl
    (.cons (s := .separator ⟨';', rfl⟩) one rfl (.one two))

theorem cut_logOfTwo {due : Bool} {ss : List Symbol} {rest : List Char} (h : Cut false ss rest) :
    Cut due (logOfTwoSymbols ++ ss) (['l', 'o', 'g', '(', '1', ';', '2', ')'] ++ rest) :=
  .symbol logSymbol rfl <| .symbol (.bracket ⟨'(', rfl⟩) trivial <|
    .symbol (ofDigit '1' rfl) (stands_ofDigit rfl rfl) <| .symbol (.separator ⟨';', rfl⟩) trivial <|
    .symbol (ofDigit '2' rfl) (stands_ofDigit rfl rfl) <| .symbol (.bracket ⟨')', rfl⟩) trivial h

theorem readable_ofDigit [DigitLimit] {c : Char} (h : CharClass.digit.has c = true) :
    (ofDigit c h).Readable :=
  ⟨DigitLimit.allows_of_le (by decide : 0 ≤ 640), DigitLimit.allows_of_le (by decide : 1 ≤ 640)⟩

theorem readable_logOfTwo [DigitLimit] : ∀ s ∈ logOfTwoSymbols, s.Readable := by
  simp only [logOfTwoSymbols, List.forall_mem_cons]
  exact ⟨trivial, trivial, readable_ofDigit rfl, trivial, readable_ofDigit rfl, trivial, by simp⟩

/-- `log(1;2)` has an argument too many, and none is missing elsewhere: it has no value. -/
theorem wrong_call_fails_log :
    let _ : DigitLimit := .standard
    let text := ['l', 'o', 'g', '(', '1', ';', '2', ')']
    ∃ x : Expression Decimal, parse text = .ok x ∧
      ∀ bindings : List Char → Option Decimal, ∃ err, x.evaluate bindings = .error err := by
  intro limit text
  have hread : ∀ s ∈ logOfTwoSymbols, s.Readable := readable_logOfTwo
  obtain ⟨x, hx, h⟩ := (wrong_call_fails (V := Decimal) renders_logOfTwo (cut_logOfTwo .nil)).1
    (by simpa using hread)
  refine ⟨x, hx, fun bindings => ?_⟩
  have hwrong : ∃ c ∈ logOfTwo.calls, c.2 ≠ c.1.arity :=
    ⟨(logSymbol, 2), by simp [logOfTwo, calls, callsAll], by decide⟩
  rcases (h bindings).1 hwrong with herror | ⟨-, -, hfew⟩
  · exact herror
  · have hlog : 2 < logSymbol.arity := by simpa [logOfTwo, calls, callsAll] using hfew
    exact absurd hlog (by decide)

/-- `max(log(1;2))`: the argument that `log` has too many is the one that `max` lacks, so that two wrong
calls have a value. -/
theorem wrong_calls_cancel :
    let _ : DigitLimit := .standard
    let text := ['m', 'a', 'x', '(', 'l', 'o', 'g', '(', '1', ';', '2', ')', ')']
    let max : Symbol := .name ⟨'m', ['a', 'x'], rfl, by decide⟩
    (∃ (e : Formula Symbol) (ss : List Symbol), e.Renders false ss ∧ Cut true ss text ∧
        e.calls = [(logSymbol, 2), (max, 1)] ∧ logSymbol.arity = 1 ∧ max.arity = 2) ∧
      ∃ x : Expression Decimal, parse text = .ok x ∧ x.evaluate (fun _ => none) = .ok ⟨1, 0⟩ := by
  intro limit text max
  let e : Formula Symbol := .call max [logOfTwo]
  have written : e.Renders false _ :=
    .call (o := .bracket ⟨'(', rfl⟩) (c := .bracket ⟨')', rfl⟩) rfl rfl rfl (.one renders_logOfTwo)
  have cut : Cut true _ text :=
    .symbol max rfl <| .symbol (.bracket ⟨'(', rfl⟩) trivial <|
      cut_logOfTwo <| .symbol (.bracket ⟨')', rfl⟩) trivial .nil
  -- `log` takes the 2, and `max` gets the 1 and the logarithm of 2
  have hvalue : Expression.evaluate (V := Decimal) ⟨some text, e.postorder.map Symbol.valued⟩
      (fun _ => none) = .ok ⟨1, 0⟩ := by
    decide +kernel
  have readable : ∀ s ∈ max :: .bracket ⟨'(', rfl⟩ :: (logOfTwoSymbols ++ [.bracket ⟨')', rfl⟩]),
      s.Readable := by
    simp only [List.forall_mem_cons, List.forall_mem_append]
    exact ⟨trivial, trivial, readable_logOfTwo, trivial, by simp⟩
  exact ⟨⟨e, _, written, cut, rfl, rfl, rfl⟩, _, parse_of_cut written cut readable, hvalue⟩

end Expression

end Reckoner
