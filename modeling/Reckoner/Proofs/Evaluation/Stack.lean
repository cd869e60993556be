import Reckoner.Expression.Evaluation

/-!
# What lies below on the stack

Tokens that can be taken in do not touch what lies below the operands that they use
(`steps_append_base`). So tokens with a value push just this value, wherever they stand
(`pushes_of_evaluate`): another token that pushes it may take their place (`evaluate_replace`). Of how
much lies there an operation sees no more than whether it is enough (`length_apply`).
-/
namespace Reckoner

/-- Does the error say that there are too few values on the stack, or too many? -/
def EvalError.ofStack {E : Type} : EvalError E → Bool
  | .underflow _ => true
  | .residue _ => true
  | _ => false

/-- Does the error say what came of an operation that had found its operands? -/
def EvalError.ofOperands {E : Type} : EvalError E → Bool
  | .inert _ => true
  | .cannotApply _ _ => true
  | .raised _ => true
  | _ => false

namespace Evaluation

variable {V E : Type}

theorem ofOperands_of_applied {op : Operation} {o : Except (Failure E) V} {err : EvalError E}
    (h : applied op o = .error err) : err.ofOperands = true := by
  rcases o with (e | e) | v <;> cases h <;> rfl

variable [Arithmetic V E] {bindings : List Char → Option V}

theorem steps_append (ts us : List (Token V)) : ∀ stack : List V,
    steps bindings stack (ts ++ us) = steps bindings stack ts >>= fun stack => steps bindings stack us := by
  induction ts with
  | nil => intro stack; rfl
  | cons t ts ih =>
    intro stack
    simp only [List.cons_append, steps]
    cases step bindings stack t with
    | error e => rfl
    | ok stack' => exact ih stack'

/-- A run that comes to its end starts with a step. -/
theorem exists_step {t : Token V} {ts : List (Token V)} {stack stack' : List V}
    (h : steps bindings stack (t :: ts) = .ok stack') :
    ∃ next, step bindings stack t = .ok next ∧ steps bindings next ts = .ok stack' := by
  cases hstep : step bindings stack t with
  | error e => simp [steps, hstep, bind, Except.bind] at h
  | ok next =>
    simp only [steps, hstep, bind, Except.bind] at h
    exact ⟨next, rfl, h⟩

/-- A run that fails does so at its first step or later. -/
theorem steps_error_cases {t : Token V} {ts : List (Token V)} {stack : List V} {err : EvalError E}
    (h : steps bindings stack (t :: ts) = .error err) : step bindings stack t = .error err ∨
      ∃ next, step bindings stack t = .ok next ∧ steps bindings next ts = .error err := by
  cases hstep : step bindings stack t with
  | error e =>
    simp only [steps, hstep, bind, Except.bind] at h
    exact .inl h
  | ok next =>
    simp only [steps, hstep, bind, Except.bind] at h
    exact .inr ⟨next, rfl, h⟩

theorem steps_of_evaluate {ts : List (Token V)} {v : V} (h : evaluate bindings ts = .ok v) :
    steps bindings [] ts = .ok [v] := by
  cases hsteps : steps bindings [] ts with
  | error e => simp [evaluate, hsteps, bind, Except.bind] at h
  | ok stack =>
    simp only [evaluate, hsteps, bind, Except.bind] at h
    split at h
    · cases h
      rfl
    · cases h

/-- An evaluation fails on the way, or it is not left with one value. -/
theorem evaluate_error_cases {ts : List (Token V)} {err : EvalError E}
    (h : evaluate bindings ts = .error err) : steps bindings [] ts = .error err ∨
      ∃ stack, steps bindings [] ts = .ok stack ∧ stack.length ≠ 1 ∧ err = .residue stack.length := by
  cases hsteps : steps bindings [] ts with
  | error e =>
    simp only [evaluate, hsteps, bind, Except.bind] at h
    cases h
    exact .inl rfl
  | ok stack =>
    simp only [evaluate, hsteps, bind, Except.bind] at h
    split at h
    · cases h
    · rename_i hone
      refine .inr ⟨stack, rfl, fun hlength => ?_, (Except.error.inj h).symm⟩
      obtain ⟨v, rfl⟩ := List.length_eq_one_iff.1 hlength
      exact hone v rfl

/-! ## The stack below -/

/-- An operation that finds its operands leaves alone what lies below them. -/
theorem apply_append_base {op : Operation} {stack stack' : List V} (h : apply op stack = .ok stack')
    (base : List V) : apply op (stack ++ base) = .ok (stack' ++ base) := by
  match op, stack, h with
  | .unary op, a :: rest, h =>
    cases hv : applyUnary op a with
    | error e => simp [apply, hv, bind, Except.bind] at h
    | ok v =>
      simp only [apply, hv, bind, Except.bind, pure, Except.pure, Except.ok.injEq] at h
      simp [apply, hv, ← h, bind, Except.bind, pure, Except.pure]
  | .binary op, b :: a :: rest, h =>
    cases hv : applyBinary op a b with
    | error e => simp [apply, hv, bind, Except.bind] at h
    | ok v =>
      simp only [apply, hv, bind, Except.bind, pure, Except.pure, Except.ok.injEq] at h
      simp [apply, hv, ← h, bind, Except.bind, pure, Except.pure]

theorem step_append_base {t : Token V} {stack stack' : List V} (h : step bindings stack t = .ok stack')
    (base : List V) : step bindings (stack ++ base) t = .ok (stack' ++ base) := by
  unfold step at h
  split at h
  · rename_i hk
    split at h
    · rename_i hv
      cases h
      simp [step, hk, hv]
    · cases h
  · rename_i hk
    split at h
    · rename_i hv
      cases h
      simp [step, hk, hv]
    · cases h
  · rename_i hk
    split at h
    · rename_i hop
      simp [step, hk, hop, apply_append_base h base]
    · cases h
  · rename_i hk
    split at h
    · rename_i hop
      simp [step, hk, hop, apply_append_base h base]
    · cases h
  · cases h

theorem steps_append_base (base : List V) : ∀ {ts : List (Token V)} {stack stack' : List V},
    steps bindings stack ts = .ok stack' → steps bindings (stack ++ base) ts = .ok (stack' ++ base)
  | [], stack, stack', h => by
    cases h
    rfl
  | t :: ts, stack, stack', h => by
    obtain ⟨next, hstep, h⟩ := exists_step h
    simp only [steps, step_append_base hstep base, bind, Except.bind]
    exact steps_append_base base h

/-! ## Heights -/

/-- An operation leaves one value in place of those that it takes. -/
theorem length_apply {op : Operation} {stack stack' : List V} (h : apply op stack = .ok stack') :
    op.arity ≤ stack.length ∧ stack'.length = stack.length - op.arity + 1 := by
  match op, stack, h with
  | .unary op, a :: rest, h =>
    cases hv : applyUnary op a <;> simp [apply, hv, bind, Except.bind, pure, Except.pure] at h
    simp [← h, Operation.arity]
  | .binary op, b :: a :: rest, h =>
    cases hv : applyBinary op a b <;> simp [apply, hv, bind, Except.bind, pure, Except.pure] at h
    simp [← h, Operation.arity]

theorem ofOperands_of_applyUnary {op : UnaryOp} {a : V} {err : EvalError E}
    (h : applyUnary op a = .error err) : err.ofOperands = true := by
  unfold applyUnary at h
  split at h
  · cases h
    rfl
  · exact ofOperands_of_applied h

theorem ofOperands_of_applyBinary {op : BinaryOp} {a b : V} {err : EvalError E}
    (h : applyBinary op a b = .error err) : err.ofOperands = true := by
  unfold applyBinary at h
  split at h
  · cases h
    rfl
  · exact ofOperands_of_applied h

/-- An operation that fails lacks operands, or it fails for what they are. -/
theorem apply_error_cases {op : Operation} {stack : List V} {err : EvalError E}
    (h : apply op stack = .error err) :
    stack.length < op.arity ∧ err = .underflow op.arity ∨ err.ofOperands = true := by
  match op, stack, h with
  | .unary op, [], h => exact .inl ⟨by simp [Operation.arity], (Except.error.inj h).symm⟩
  | .unary op, a :: rest, h =>
    cases hv : applyUnary op a <;> simp [apply, hv, bind, Except.bind, pure, Except.pure] at h
    exact .inr (h ▸ ofOperands_of_applyUnary hv)
  | .binary op, [], h => exact .inl ⟨by simp [Operation.arity], (Except.error.inj h).symm⟩
  | .binary op, [b], h => exact .inl ⟨by simp [Operation.arity], (Except.error.inj h).symm⟩
  | .binary op, b :: a :: rest, h =>
    cases hv : applyBinary op a b <;> simp [apply, hv, bind, Except.bind, pure, Except.pure] at h
    exact .inr (h ▸ ofOperands_of_applyBinary hv)

/-- An operation that lacks operands finds too few. -/
theorem length_lt_of_apply {op : Operation} {stack : List V} {err : EvalError E}
    (h : apply op stack = .error err) (herr : err.ofStack = true) : stack.length < op.arity := by
  rcases apply_error_cases h with ⟨hlt, -⟩ | hoperands
  · exact hlt
  · cases err <;> simp_all [EvalError.ofStack, EvalError.ofOperands]

/-- No operation asks for a variable. -/
theorem apply_ne_unbound (op : Operation) (stack : List V) (name : List Char) :
    apply op stack ≠ .error (.unbound name) := by
  intro h
  rcases apply_error_cases h with ⟨-, herr⟩ | hoperands
  · cases herr
  · cases hoperands

/-! ## Pushing one value -/

/-- Does taking in tokens push a value, whatever is on the stack and whatever follows? -/
def Pushes (bindings : List Char → Option V) (ts : List (Token V)) (v : V) : Prop :=
  ∀ (stack : List V) (rest : List (Token V)),
    steps bindings stack (ts ++ rest) = steps bindings (v :: stack) rest

theorem pushes_of_step {t : Token V} {v : V} (h : ∀ stack, step bindings stack t = .ok (v :: stack)) :
    Pushes bindings [t] v := fun stack rest => by
  rw [List.singleton_append, steps, h stack]
  rfl

/-- An operation takes the values that its operands' tokens have pushed. -/
theorem Pushes.operation {us vs : List (Token V)} {a b v : V} {t : Token V} (hus : Pushes bindings us a)
    (hvs : Pushes bindings vs b) (h : ∀ stack, step bindings (b :: a :: stack) t = .ok (v :: stack)) :
    Pushes bindings (us ++ vs ++ [t]) v := fun stack rest => by
  rw [List.append_assoc, List.append_assoc, hus, hvs, List.singleton_append, steps, h stack]
  rfl

theorem Pushes.evaluate {ts : List (Token V)} {v : V} (h : Pushes bindings ts v) :
    evaluate bindings ts = .ok v := by
  have hsteps := h [] []
  rw [List.append_nil] at hsteps
  rw [Evaluation.evaluate, hsteps]
  rfl

theorem pushes_of_evaluate {ts : List (Token V)} {v : V} (h : evaluate bindings ts = .ok v) :
    Pushes bindings ts v := fun stack rest => by
  have hbelow := steps_append_base stack (steps_of_evaluate h)
  rw [List.nil_append] at hbelow
  rw [steps_append, hbelow]
  rfl

/-- Only the value that tokens push matters to the tokens around them. -/
theorem evaluate_replace {us vs : List (Token V)} {v : V} (hus : Pushes bindings us v)
    (hvs : Pushes bindings vs v) (before after : List (Token V)) :
    evaluate bindings (before ++ us ++ after) = evaluate bindings (before ++ vs ++ after) := by
  have hsteps : steps bindings [] (before ++ us ++ after) =
      steps bindings [] (before ++ vs ++ after) := by
    rw [List.append_assoc, List.append_assoc, steps_append, steps_append]
    congr 1
    funext stack
    rw [hus stack after, hvs stack after]
  rw [evaluate, evaluate, hsteps]

end Evaluation

end Reckoner
