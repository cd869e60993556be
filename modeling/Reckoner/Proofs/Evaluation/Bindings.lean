import Reckoner.Proofs.Evaluation.Stack

/-!
# What bindings matter

An evaluation asks only for the variables among its tokens: bindings that agree on these lead to the same
value or the same error (`evaluate_congr`). It asks for all of them on the way to a value
(`bound_of_evaluate`), and it misses none but one that is not bound (`evaluate_unbound`).
-/
namespace Reckoner.Evaluation

variable {V E : Type} [Arithmetic V E] {bindings bindings' : List Char → Option V}

/-- Do the bindings agree on the variables among the tokens? -/
def Agree (bindings bindings' : List Char → Option V) (ts : List (Token V)) : Prop :=
  ∀ t ∈ ts, t.kind = some .variable → bindings t.text = bindings' t.text

theorem step_congr {t : Token V} (h : t.kind = some .variable → bindings t.text = bindings' t.text)
    (stack : List V) : step bindings stack t = step bindings' stack t := by
  unfold step
  split
  · rfl
  · rename_i hk
    rw [h hk]
  · rfl
  · rfl
  · rfl

theorem steps_congr : ∀ {ts : List (Token V)} (stack : List V), Agree bindings bindings' ts →
    steps bindings stack ts = steps bindings' stack ts
  | [], _, _ => rfl
  | t :: ts, stack, h => by
    have hrest : Agree bindings bindings' ts := fun u hu => h u (List.mem_cons_of_mem t hu)
    simp only [steps, step_congr (h t (by simp)) stack]
    cases step bindings' stack t with
    | error e => rfl
    | ok next => exact steps_congr next hrest

theorem evaluate_congr {ts : List (Token V)} (h : Agree bindings bindings' ts) :
    evaluate bindings ts = evaluate bindings' ts := by
  rw [evaluate, evaluate, steps_congr [] h]

theorem step_unbound {t : Token V} {stack : List V} {name : List Char}
    (h : step bindings stack t = .error (.unbound name)) :
    t.kind = some .variable ∧ t.text = name ∧ bindings name = none := by
  unfold step at h
  split at h
  · split at h <;> cases h
  · rename_i hk
    split at h
    · cases h
    · rename_i hnone
      cases h
      exact ⟨hk, rfl, hnone⟩
  · split at h
    · exact absurd h (apply_ne_unbound _ stack name)
    · cases h
  · split at h
    · exact absurd h (apply_ne_unbound _ stack name)
    · cases h
  · cases h

/-- Only a variable among the tokens can be missed. -/
theorem steps_unbound {name : List Char} : ∀ {ts : List (Token V)} {stack : List V},
    steps bindings stack ts = .error (.unbound name) →
      ∃ t ∈ ts, t.kind = some .variable ∧ t.text = name ∧ bindings name = none
  | [], stack, h => by cases h
  | t :: ts, stack, h => by
    rcases steps_error_cases h with hstep | ⟨next, -, h⟩
    · exact ⟨t, by simp, step_unbound hstep⟩
    · obtain ⟨u, hu, hname⟩ := steps_unbound h
      exact ⟨u, List.mem_cons_of_mem t hu, hname⟩

theorem evaluate_unbound {ts : List (Token V)} {name : List Char}
    (h : evaluate bindings ts = .error (.unbound name)) :
    ∃ t ∈ ts, t.kind = some .variable ∧ t.text = name ∧ bindings name = none := by
  rcases evaluate_error_cases h with hsteps | ⟨_, -, -, herr⟩
  · exact steps_unbound hsteps
  · cases herr

theorem bound_of_step {t : Token V} {stack stack' : List V} (h : step bindings stack t = .ok stack')
    (hk : t.kind = some .variable) : bindings t.text ≠ none := by
  intro hnone
  simp [step, hk, hnone] at h

/-- All variables among the tokens are asked for on the way to a value. -/
theorem bound_of_steps : ∀ {ts : List (Token V)} {stack stack' : List V},
    steps bindings stack ts = .ok stack' → ∀ t ∈ ts, t.kind = some .variable → bindings t.text ≠ none
  | [], _, _, _ => by simp
  | t :: ts, stack, stack', h => by
    obtain ⟨next, hstep, h⟩ := exists_step h
    exact List.forall_mem_cons.2 ⟨bound_of_step hstep, bound_of_steps h⟩

theorem bound_of_evaluate {ts : List (Token V)} {v : V} (h : evaluate bindings ts = .ok v) :
    ∀ t ∈ ts, t.kind = some .variable → bindings t.text ≠ none :=
  bound_of_steps (steps_of_evaluate h)

end Reckoner.Evaluation
