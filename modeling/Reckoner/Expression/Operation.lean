/-!
# Operations and their symbols

The operators with the operations they stand for and their precedence, the functions with theirs,
and what a type of values has to offer for expressions to be computed with it.
-/
namespace Reckoner

inductive UnaryOp where
  | log10
  deriving DecidableEq, Repr

inductive BinaryOp where
  | add
  | sub
  | mul
  | div
  | max
  deriving DecidableEq, Repr

inductive Operation where
  | unary (op : UnaryOp)
  | binary (op : BinaryOp)
  deriving DecidableEq, Repr

namespace Operation

def name : Operation → String
  | .unary .log10 => "log10"
  | .binary .add => "add"
  | .binary .sub => "sub"
  | .binary .mul => "mul"
  | .binary .div => "div"
  | .binary .max => "max"

def arity : Operation → Nat
  | .unary _ => 1
  | .binary _ => 2

end Operation

/-- An operator's operation, and how tightly it binds. -/
structure Operator where
  operation : BinaryOp
  precedence : Nat
  deriving DecidableEq, Repr

namespace Operator

def table : List (Char × Operator) :=
  [('+', ⟨.add, 1⟩), ('-', ⟨.sub, 1⟩), ('*', ⟨.mul, 2⟩), ('/', ⟨.div, 2⟩),
   ('−', ⟨.sub, 1⟩), ('×', ⟨.mul, 2⟩), ('÷', ⟨.div, 2⟩)]

def isSymbol (c : Char) : Bool := (table.lookup c).isSome

def ofText? : List Char → Option Operator
  | [c] => table.lookup c
  | _ => none

end Operator

def functionTable : List (List Char × Operation) :=
  [(['l', 'o', 'g'], .unary .log10), (['l', 'o', 'g', '1', '0'], .unary .log10),
   (['m', 'a', 'x'], .binary .max)]

def function? (name : List Char) : Option Operation := functionTable.lookup name

/-! ## Arithmetic -/

inductive Failure (E : Type) where
  /-- In the terms of expressions: the evaluation fails with just this error. -/
  | own (e : E)
  /-- In any other way: the evaluation fails because the operation could not be applied. -/
  | foreign (e : E)
  deriving DecidableEq, Repr

def Failure.map {E F : Type} (f : E → F) : Failure E → Failure F
  | .own e => .own (f e)
  | .foreign e => .foreign (f e)

/-- What expressions need of the values that they compute with. -/
class Arithmetic (V : Type) (E : outParam Type) where
  /-- The name of its type, for a value that is not there to compute with. -/
  inert? : V → Option String
  unary : UnaryOp → V → Except (Failure E) V
  binary : BinaryOp → V → V → Except (Failure E) V
  /-- How an operation fails whose right operand is of another type. -/
  mismatch : BinaryOp → V → Failure E

/-- Values of two types side by side. An operation is that of its left operand, and operands are not
converted. -/
instance {V W E F : Type} [Arithmetic V E] [Arithmetic W F] : Arithmetic (V ⊕ W) (E ⊕ F) where
  inert?
    | .inl v => Arithmetic.inert? v
    | .inr w => Arithmetic.inert? w
  unary
    | op, .inl v => ((Arithmetic.unary op v).map .inl).mapError (·.map .inl)
    | op, .inr w => ((Arithmetic.unary op w).map .inr).mapError (·.map .inr)
  binary
    | op, .inl v, .inl v' => ((Arithmetic.binary op v v').map .inl).mapError (·.map .inl)
    | op, .inr w, .inr w' => ((Arithmetic.binary op w w').map .inr).mapError (·.map .inr)
    | op, .inl v, .inr _ => .error ((Arithmetic.mismatch op v).map .inl)
    | op, .inr w, .inl _ => .error ((Arithmetic.mismatch op w).map .inr)
  mismatch
    | op, .inl v => (Arithmetic.mismatch op v).map .inl
    | op, .inr w => (Arithmetic.mismatch op w).map .inr

end Reckoner
