import Reckoner.Scanner.Run

/-!
# Single steps of a run

A run unfolds one call of a state at a time: what follows depends on the verdict and on the
workspace that the call leaves, and on nothing else.
-/
namespace Reckoner.Scanner

variable {V σ T : Type} {m : Scanner V σ T} {input rest : List Char} {index : Nat} {state next : σ}
  {w w' : Workspace V T}

theorem runFrom_goto {c : Char}
    (h : m.call input index (c :: rest) state w = .ok (.goto next, w')) :
    m.runFrom input (c :: rest) index 0 state w =
      m.runFrom input rest (index + 1) w'.skip next w' := by
  simp only [runFrom, h, bind, Except.bind]

theorem runFrom_finish (h : m.call input index rest state w = .ok (.finish, w')) :
    m.runFrom input rest index 0 state w = m.succeed input index w' := by
  cases rest with
  | nil => simp only [runFrom, h, bind, Except.bind, atEnd]
  | cons c rest => simp only [runFrom, h, bind, Except.bind]

theorem runFrom_fail {c : Char} {reason : String}
    (h : m.call input index (c :: rest) state w = .ok (.fail reason, w')) :
    m.runFrom input (c :: rest) index 0 state w =
      .ok (reject w' (.unexpected input index reason)) := by
  simp only [runFrom, h, bind, Except.bind]

theorem runFrom_incomplete {reason : String}
    (h : m.call input index [] state w = .ok (.fail reason, w')) :
    m.runFrom input [] index 0 state w = .ok (reject w' (.incomplete input reason)) := by
  simp only [runFrom, h, bind, Except.bind, atEnd]

theorem runFrom_error {e : Misuse} (h : m.call input index rest state w = .error e) :
    m.runFrom input rest index 0 state w = .error e := by
  cases rest with
  | nil => simp only [runFrom, h, bind, Except.bind]
  | cons c rest => simp only [runFrom, h, bind, Except.bind]

/-- Two states that do the same here go on alike. -/
theorem runFrom_congr
    (h : m.call input index rest state w = m.call input index rest next w') :
    m.runFrom input rest index 0 state w = m.runFrom input rest index 0 next w' := by
  cases rest with
  | nil => simp only [runFrom, h]
  | cons c rest => simp only [runFrom, h]

/-- Characters that a nested scan has consumed are passed over. -/
theorem runFrom_skip : ∀ (passed : List Char) {index : Nat},
    m.runFrom input (passed ++ rest) index passed.length state w =
      m.runFrom input rest (index + passed.length) 0 state w
  | [], index => rfl
  | c :: passed, index => by
    rw [List.cons_append, List.length_cons, runFrom, runFrom_skip passed]
    congr 1
    omega

end Reckoner.Scanner
