import Reckoner.Proofs.Evaluation.Stack
import Reckoner.Proofs.Evaluation.Value

/-!
# Failures of operations

An evaluation carries out operations (`CarriesOut`) up to the first that fails, and it fails with what
this failure becomes, unless nothing is to be done with a token, operands are lacking or the stack is
not left with one value. Main theorem `evaluate_eq_error_iff`: an error comes from an operation just
if an operation that was carried out has failed so.
-/
namespace Reckoner

def EvalError.ofFailure {E : Type} (op : Operation) : Failure E → EvalError E
  | .own cause => .raised cause
  | .foreign cause => .cannotApply op cause

def EvalError.fromOperation {E : Type} : EvalError E → Bool
  | .raised _ => true
  | .cannotApply _ _ => true
  | _ => false

namespace Evaluation

variable {V E : Type}

theorem fromOperation_ofFailure (op : Operation) (f : Failure E) :
    (EvalError.ofFailure op f).fromOperation = true := by
  cases f <;> rfl

theorem ofFailure_eq_raised_iff {op : Operation} {f : Failure E} {cause : E} :
    EvalError.ofFailure op f = .raised cause ↔ f = .own cause := by
  cases f <;> simp [EvalError.ofFailure]

theorem ofFailure_eq_cannotApply_iff {op op' : Operation} {f : Failure E} {cause : E} :
    EvalError.ofFailure op f = .cannotApply op' cause ↔ op = op' ∧ f = .foreign cause := by
  cases f <;> simp [EvalError.ofFailure]

theorem applied_eq_error_iff {op : Operation} {o : Except (Failure E) V} {err : EvalError E} :
    applied op o = .error err ↔ ∃ f, o = .error f ∧ EvalError.ofFailure op f = err := by
  cases o with
  | ok v => simp [applied]
  | error f => cases f <;> simp [applied, EvalError.ofFailure]

variable [Arithmetic V E] {bindings : List Char → Option V}

/-! ## Single operations -/

/-- What comes of an operation on the operands on top of the stack; none if it is not carried out,
because operands are lacking or the left one is nothing to compute with. -/
def outcome? : Operation → List V → Option (Except (Failure E) V)
  | .unary op, a :: _ => if (Arithmetic.inert? a).isNone then some (Arithmetic.unary op a) else none
  | .binary op, b :: a :: _ =>
    if (Arithmetic.inert? a).isNone then some (Arithmetic.binary op a b) else none
  | _, _ => none

/-- An operation is carried out, and it fails just as its outcome does; or it is not, and then its
error comes from no operation. -/
theorem apply_cases (op : Operation) (stack : List V) :
    (∃ o, outcome? op stack = some o ∧ ∀ err, apply op stack = .error err ↔ applied op o = .error err) ∨
      outcome? op stack = none ∧ ∃ err, apply op stack = .error err ∧ err.fromOperation = false := by
  match op, stack with
  | .unary op, [] => exact .inr ⟨rfl, _, rfl, rfl⟩
  | .unary op, a :: rest =>
    cases ha : Arithmetic.inert? a with
    | some typeName =>
      exact .inr ⟨by simp [outcome?, ha], .inert typeName,
        by simp [apply, applyUnary, ha, bind, Except.bind], rfl⟩
    | none =>
      refine .inl ⟨Arithmetic.unary op a, by simp [outcome?, ha], fun err => ?_⟩
      simp only [apply, applyUnary, ha]
      cases applied (.unary op) (Arithmetic.unary op a) <;> simp [bind, Except.bind, pure, Except.pure]
  | .binary op, [] => exact .inr ⟨rfl, _, rfl, rfl⟩
  | .binary op, [b] => exact .inr ⟨rfl, _, rfl, rfl⟩
  | .binary op, b :: a :: rest =>
    cases ha : Arithmetic.inert? a with
    | some typeName =>
      exact .inr ⟨by simp [outcome?, ha], .inert typeName,
        by simp [apply, applyBinary, ha, bind, Except.bind], rfl⟩
    | none =>
      refine .inl ⟨Arithmetic.binary op a b, by simp [outcome?, ha], fun err => ?_⟩
      simp only [apply, applyBinary, ha]
      cases applied (.binary op) (Arithmetic.binary op a b) <;>
        simp [bind, Except.bind, pure, Except.pure]

theorem apply_eq_error_iff {op : Operation} {stack : List V} {err : EvalError E}
    (herr : err.fromOperation = true) : apply op stack = .error err ↔
      ∃ f, outcome? op stack = some (.error f) ∧ EvalError.ofFailure op f = err := by
  rcases apply_cases op stack with ⟨o, ho, h⟩ | ⟨hnone, err', h, herr'⟩
  · rw [h, applied_eq_error_iff, ho]
    simp
  · rw [h, hnone]
    constructor
    · intro heq
      cases heq
      rw [herr] at herr'
      cases herr'
    · rintro ⟨f, hf, -⟩
      cases hf

/-- A token that nothing is to be done with fails by itself, whatever is on the stack. -/
theorem step_of_no_instruction {t : Token V} (h : instruction? bindings t = none) (stack : List V) :
    ∃ err, step bindings stack t = .error err ∧ err.fromOperation = false ∧ err.ofStack = false := by
  unfold instruction? at h
  unfold step
  split at h <;> simp_all [EvalError.fromOperation, EvalError.ofStack]

/-! ## Whole evaluations -/

/-- Evaluation gets as far as an operation, with this outcome. -/
inductive CarriesOut (bindings : List Char → Option V) (op : Operation) (o : Except (Failure E) V) :
    List V → List (Token V) → Prop
  | now {stack : List V} {t : Token V} (rest : List (Token V))
      (ht : instruction? bindings t = some (.operation op)) (h : outcome? op stack = some o) :
      CarriesOut bindings op o stack (t :: rest)
  | later {stack stack' : List V} {t : Token V} {rest : List (Token V)}
      (ht : step bindings stack t = .ok stack') (h : CarriesOut bindings op o stack' rest) :
      CarriesOut bindings op o stack (t :: rest)

theorem steps_eq_error_of_carriesOut {op : Operation} {f : Failure E} {stack : List V}
    {ts : List (Token V)} (h : CarriesOut bindings op (.error f) stack ts) :
    steps bindings stack ts = .error (.ofFailure op f) := by
  induction h with
  | now rest ht h =>
    have hfails := (apply_eq_error_iff (fromOperation_ofFailure op f)).2 ⟨f, h, rfl⟩
    simp only [steps, step_eq_perform ht, Instruction.perform, hfails, bind, Except.bind]
  | later ht _ ih => simpa only [steps, ht, bind, Except.bind] using ih

/-- The operation that has failed is the last one to be carried out. -/
theorem carriesOut_of_steps_eq_error {err : EvalError E} (herr : err.fromOperation = true) :
    ∀ {ts : List (Token V)} {stack : List V}, steps bindings stack ts = .error err →
      ∃ op f, CarriesOut bindings op (.error f) stack ts ∧ EvalError.ofFailure op f = err
  | [], stack, h => by cases h
  | t :: ts, stack, h => by
    rcases steps_error_cases h with hstep | ⟨stack', hstep, h⟩
    · cases hi : instruction? bindings t with
      | none =>
        -- a token that asks for nothing fails, but with no operation's error
        obtain ⟨err', hstep', herr', -⟩ := step_of_no_instruction hi stack
        rw [hstep] at hstep'
        cases hstep'
        rw [herr] at herr'
        cases herr'
      | some i =>
        rw [step_eq_perform hi] at hstep
        cases i with
        | operand v => cases hstep
        | operation op =>
          obtain ⟨f, ho, hf⟩ := (apply_eq_error_iff herr).1 hstep
          exact ⟨op, f, .now ts hi ho, hf⟩
    · obtain ⟨op, f, hout, hf⟩ := carriesOut_of_steps_eq_error herr h
      exact ⟨op, f, .later hstep hout, hf⟩

/-- An evaluation fails with an error from an operation just if it carries out an operation that
fails so. -/
theorem evaluate_eq_error_iff {err : EvalError E} (herr : err.fromOperation = true)
    {ts : List (Token V)} : evaluate bindings ts = .error err ↔
      ∃ op f, CarriesOut bindings op (.error f) [] ts ∧ EvalError.ofFailure op f = err := by
  constructor
  · intro h
    rcases evaluate_error_cases h with hsteps | ⟨_, -, -, rfl⟩
    · exact carriesOut_of_steps_eq_error herr hsteps
    · cases herr
  · rintro ⟨op, f, hout, rfl⟩
    rw [evaluate, steps_eq_error_of_carriesOut hout]
    rfl

end Evaluation

end Reckoner
