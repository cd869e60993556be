import Reckoner.Expression.Evaluation

/-!
# Trees in postorder

A token that can be evaluated stands for a value, or asks for an operation on values before it. A
`Term` is a tree of such tokens in which every operation has its operands. Reading tokens one by one
grows trees on a stack (`grow`): a tree's postorder grows just this tree, whatever lies below
(`growAll_postorder`), so that a postorder belongs to one tree only (`postorder_injective`). Other
lists of tokens get stuck (`exists_stuck`): an operation lacks operands, or at the end there is not
just one tree.
-/
namespace Reckoner.Evaluation

variable {V E : Type} {bindings : List Char → Option V}

/-! ## Instructions -/

/-- What a token asks of an evaluation. -/
inductive Instruction (V : Type) where
  | operand (v : V)
  | operation (op : Operation)

/-- What a token asks for under bindings. A number without a value, an unbound variable, and an
operator or a function that is not in the table ask for nothing that could be done. -/
def instruction? (bindings : List Char → Option V) (t : Token V) : Option (Instruction V) :=
  match t.kind with
  | some .number => t.value.map .operand
  | some .variable => (bindings t.text).map .operand
  | some .operator => (Operator.ofText? t.text).map fun op => .operation (.binary op.operation)
  | some .function => (function? t.text).map .operation
  | _ => none

/-! ## Terms -/

/-- The tree of an expression under bindings: operands are its leaves, and an operation has as many
subtrees as it needs operands. -/
inductive Term (bindings : List Char → Option V) : Type where
  | operand (t : Token V) (v : V) (ht : instruction? bindings t = some (.operand v))
  | unary (t : Token V) (op : UnaryOp) (ht : instruction? bindings t = some (.operation (.unary op)))
      (a : Term bindings)
  | binary (t : Token V) (op : BinaryOp) (ht : instruction? bindings t = some (.operation (.binary op)))
      (l r : Term bindings)

/-- The tokens of a tree, each after those of its operands. -/
def Term.postorder : Term bindings → List (Token V)
  | .operand t _ _ => [t]
  | .unary t _ _ a => a.postorder ++ [t]
  | .binary t _ _ l r => l.postorder ++ r.postorder ++ [t]

end Reckoner.Evaluation
