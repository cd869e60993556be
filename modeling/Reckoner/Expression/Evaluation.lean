import Reckoner.Expression.Operation
import Reckoner.Token.Basic

/-!
# Evaluation in postorder

Operands are pushed on a stack, and an operation takes as many of them as it needs, the last one
pushed being its last operand. What is left on the stack at the end has to be one value.
-/
namespace Reckoner

/-- Why an evaluation has no value. `E` is what operations fail with. -/
inductive EvalError (E : Type) where
  /-- A number token to which no value was given. -/
  | noValue (text : List Char)
  | unbound (name : List Char)
  /-- An operator or a function that is not in the table. -/
  | noSuchOperation (kind : Kind) (text : List Char)
  /-- A token that is neither operand nor operation. -/
  | notEvaluable (kind : Option Kind) (text : List Char)
  /-- An operation finds fewer operands than it needs. -/
  | underflow (needed : Nat)
  /-- Not one value is left at the end. -/
  | residue (count : Nat)
  /-- The left operand is nothing to compute with. -/
  | inert (typeName : String)
  /-- An operation failed. -/
  | cannotApply (op : Operation) (cause : E)
  /-- An operation failed in the terms of expressions. -/
  | raised (cause : E)
  deriving DecidableEq, Repr

namespace Evaluation

variable {V E : Type}

/-- The outcome of an operation as part of an evaluation. -/
def applied (op : Operation) : Except (Failure E) V → Except (EvalError E) V
  | .ok v => .ok v
  | .error (.own e) => .error (.raised e)
  | .error (.foreign e) => .error (.cannotApply op e)

variable [Arithmetic V E]

def applyUnary (op : UnaryOp) (a : V) : Except (EvalError E) V :=
  match Arithmetic.inert? a with
  | some typeName => .error (.inert typeName)
  | none => applied (.unary op) (Arithmetic.unary op a)

def applyBinary (op : BinaryOp) (a b : V) : Except (EvalError E) V :=
  match Arithmetic.inert? a with
  | some typeName => .error (.inert typeName)
  | none => applied (.binary op) (Arithmetic.binary op a b)

def apply (op : Operation) (stack : List V) : Except (EvalError E) (List V) :=
  match op, stack with
  | .unary op, a :: rest => do return (← applyUnary op a) :: rest
  | .binary op, b :: a :: rest => do return (← applyBinary op a b) :: rest
  | op, _ => .error (.underflow op.arity)

def step (bindings : List Char → Option V) (stack : List V) (t : Token V) :
    Except (EvalError E) (List V) :=
  match t.kind with
  | some .number =>
    match t.value with
    | some v => .ok (v :: stack)
    | none => .error (.noValue t.text)
  | some .variable =>
    match bindings t.text with
    | some v => .ok (v :: stack)
    | none => .error (.unbound t.text)
  | some .operator =>
    match Operator.ofText? t.text with
    | some op => apply (.binary op.operation) stack
    | none => .error (.noSuchOperation .operator t.text)
  | some .function =>
    match function? t.text with
    | some op => apply op stack
    | none => .error (.noSuchOperation .function t.text)
  | kind => .error (.notEvaluable kind t.text)

def steps (bindings : List Char → Option V) (stack : List V) :
    List (Token V) → Except (EvalError E) (List V)
  | [] => .ok stack
  | t :: ts => do steps bindings (← step bindings stack t) ts

def evaluate (bindings : List Char → Option V) (tokens : List (Token V)) :
    Except (EvalError E) V := do
  match ← steps bindings [] tokens with
  | [v] => .ok v
  | stack => .error (.residue stack.length)

end Evaluation

end Reckoner
