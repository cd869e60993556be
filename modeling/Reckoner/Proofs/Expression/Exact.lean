import Reckoner.Proofs.Expression.Reading

/-!
# Exact expressions

Without division and logarithms every operation is exact, so that a whole expression is: its value
under decimal bindings stands for the rational number that its tree denotes. Main theorem
`evaluate_exact`: that holds from the text on, however the tree is written.
-/
namespace Reckoner

open Lexer OfDecimal

/-- The operation on rational numbers that an operation stands for. -/
def BinaryOp.onRat : BinaryOp → ℚ → ℚ → ℚ
  | .add, x, y => x + y
  | .sub, x, y => x - y
  | .mul, x, y => x * y
  | .div, x, y => x / y
  | .max, x, y => Max.max x y

theorem Decimal.binary_exact {op : BinaryOp} (h : op ≠ .div) (s : Settings) (a b : Decimal) :
    ∃ d, binary s op a b = .ok d ∧ d.value = op.onRat a.value b.value := by
  cases op with
  | add => exact ⟨_, rfl, value_add a b⟩
  | sub => exact ⟨_, rfl, value_sub a b⟩
  | mul => exact ⟨_, rfl, value_mul a b⟩
  | div => exact absurd rfl h
  | max => exact ⟨_, rfl, value_max a b⟩

/-- Values among which decimals compute as they do by themselves. -/
class LawfulOfDecimal (V : Type) {E : Type} [Arithmetic V E] [OfDecimal V] : Prop where
  active (a : Decimal) : Arithmetic.inert? (ofDecimal a : V) = none
  binary {op : BinaryOp} {a b d : Decimal} (h : Decimal.binary {} op a b = .ok d) :
    Arithmetic.binary op (ofDecimal a : V) (ofDecimal b) = .ok (ofDecimal d)

instance [DigitLimit] : LawfulOfDecimal Decimal where
  active _ := rfl
  binary {op a b d} h := by
    change (Decimal.binary {} op a b).mapError Failure.foreign = .ok d
    rw [h]
    rfl

instance [DigitLimit] {W F : Type} [Arithmetic W F] : LawfulOfDecimal (Decimal ⊕ W) where
  active _ := rfl
  binary {op a b d} h := by
    change (((Decimal.binary {} op a b).mapError Failure.foreign).map Sum.inl).mapError _ =
      .ok (.inl d)
    rw [h]
    rfl

namespace Expression

/-! ## Trees of exact operations -/

def maxName : Name := ⟨'m', ['a', 'x'], rfl, by decide⟩

/-- The trees of expressions in which every operation is exact. -/
inductive Exact where
  | literal (f : Literal.Form)
  /-- A variable: a name that is no function's. -/
  | name (n : Name) (hn : n.function? = none)
  /-- Any operator of the table but those of division. -/
  | binary (c : Char) (op : Operator) (hc : Operator.table.lookup c = some op)
      (exact : op.operation ≠ .div) (left right : Exact)
  | max (left right : Exact)
  | group (inner : Exact)

namespace Exact

/-- The tree as a formula of the symbols that write it. -/
def formula : Exact → Formula Symbol
  | .literal f => .operand (.number f)
  | .name n _ => .operand (.name n)
  | .binary c _ hc _ l r =>
    .binary (.operator ⟨c, by simp [Operator.isSymbol, hc]⟩) l.formula r.formula
  | .max l r => .call (.name maxName) [l.formula, r.formula]
  | .group e => .group e.formula

def variableNames : Exact → List (List Char)
  | .literal _ => []
  | .name n _ => [n.text]
  | .binary _ _ _ _ l r => l.variableNames ++ r.variableNames
  | .max l r => l.variableNames ++ r.variableNames
  | .group e => e.variableNames

/-- The rational number that the tree denotes if variables stand for rational numbers. -/
def denote (ρ : List Char → ℚ) : Exact → ℚ
  | .literal f => f.value
  | .name n _ => ρ n.text
  | .binary _ op _ _ l r => op.operation.onRat (l.denote ρ) (r.denote ρ)
  | .max l r => Max.max (l.denote ρ) (r.denote ρ)
  | .group e => e.denote ρ

end Exact

/-! ## Evaluation -/

variable {V E : Type} [OfDecimal V] [Arithmetic V E] {bindings : List Char → Option V}

theorem step_operator {c : Char} {op : Operator} (hc : Operator.table.lookup c = some op)
    (hsymbol : Operator.isSymbol c = true) (stack : List V) :
    Evaluation.step bindings stack (Symbol.valued (.operator ⟨c, hsymbol⟩)) =
      Evaluation.apply (.binary op.operation) stack := by
  simp [Evaluation.step, Symbol.valued, Symbol.token, Token.spelled, Token.text, Lexeme.chars?,
    Operator.ofText?, hc]

theorem step_max (stack : List V) :
    Evaluation.step bindings stack (Symbol.valued (.name maxName)) =
      Evaluation.apply (.binary .max) stack := rfl

variable [LawfulOfDecimal V]

/-- An exact operation on the decimals on top of the stack. -/
theorem apply_exact {op : BinaryOp} (h : op ≠ .div) (a b : Decimal) :
    ∃ d, d.value = op.onRat a.value b.value ∧ ∀ stack : List V,
      Evaluation.apply (.binary op) (ofDecimal b :: ofDecimal a :: stack) =
        .ok (ofDecimal d :: stack) := by
  obtain ⟨d, hd, hvalue⟩ := Decimal.binary_exact h {} a b
  refine ⟨d, hvalue, fun stack => ?_⟩
  simp only [Evaluation.apply, Evaluation.applyBinary, LawfulOfDecimal.active, LawfulOfDecimal.binary hd,
    Evaluation.applied, bind, Except.bind, pure, Except.pure]

/-- The tokens of an exact tree push a decimal that stands for what the tree denotes. -/
theorem pushes_postorder {σ : List Char → Decimal} : ∀ e : Exact,
    (∀ x ∈ e.variableNames, bindings x = some (ofDecimal (σ x))) →
    ∃ d, d.value = e.denote (fun x => (σ x).value) ∧
      Evaluation.Pushes bindings (e.formula.postorder.map Symbol.valued) (ofDecimal d)
  | .literal f, _ =>
    ⟨f.decimal, Literal.value_decimal f, Evaluation.pushes_of_step fun _ => rfl⟩
  | .name n hn, h => by
    have hbound := h n.text (by simp [Exact.variableNames])
    exact ⟨σ n.text, rfl, Evaluation.pushes_of_step (step_name hn hbound)⟩
  | .binary c op hc exact l r, h => by
    obtain ⟨a, ha, hl⟩ := pushes_postorder l fun x hx => h x (by simp [Exact.variableNames, hx])
    obtain ⟨b, hb, hr⟩ := pushes_postorder r fun x hx => h x (by simp [Exact.variableNames, hx])
    obtain ⟨d, hd, happly⟩ := apply_exact (V := V) exact a b
    refine ⟨d, by rw [hd, ha, hb, Exact.denote], ?_⟩
    rw [Exact.formula, Formula.postorder, List.map_append, List.map_append]
    exact hl.operation hr fun stack => (step_operator hc _ _).trans (happly stack)
  | .max l r, h => by
    obtain ⟨a, ha, hl⟩ := pushes_postorder l fun x hx => h x (by simp [Exact.variableNames, hx])
    obtain ⟨b, hb, hr⟩ := pushes_postorder r fun x hx => h x (by simp [Exact.variableNames, hx])
    have hmax : BinaryOp.max ≠ .div := by decide
    obtain ⟨d, hd, happly⟩ := apply_exact (V := V) hmax a b
    refine ⟨d, by rw [hd, ha, hb, Exact.denote, BinaryOp.onRat], ?_⟩
    rw [Exact.formula, Formula.postorder, Formula.postorderAll, Formula.postorderAll,
      Formula.postorderAll, List.append_nil, List.map_append, List.map_append]
    exact hl.operation hr fun stack => (step_max _).trans (happly stack)
  | .group e, h => pushes_postorder e h

/-- **Exactness.** However a tree of exact operations is written, with white space between its
symbols, the text is read and evaluated to a decimal that stands for the rational number that the
tree denotes. Names that are not in the tree may have any values. Only a literal with more digits than the
runtime's limit allows keeps the text from being read. -/
theorem evaluate_exact [DigitLimit] (e : Exact) {b : Bool} {ss : List Symbol} {text : List Char}
    (he : e.formula.Renders b ss) (hs : Spaced ss text) {σ : List Char → Decimal}
    (hσ : ∀ x ∈ e.variableNames, bindings x = some (ofDecimal (σ x))) :
    ((∀ s ∈ ss, s.Readable) → ∃ x d, parse text = .ok x ∧ x.evaluate bindings = .ok (ofDecimal d) ∧
        d.value = e.denote fun x => (σ x).value) ∧
      ((¬ ∀ s ∈ ss, s.Readable) → ∃ f, Symbol.number f ∈ ss ∧ ¬ f.Readable ∧
        parse (V := V) text = .error (.read f.readError)) := by
  have hcut := cut_renders he hs
  refine ⟨fun hread => ?_, parse_cut_overlong hcut⟩
  obtain ⟨d, hd, hpushes⟩ := pushes_postorder e hσ
  exact ⟨_, d, parse_of_cut he hcut hread, hpushes.evaluate, hd⟩

/-- `max ( x ; -1,5e1 ) − 3` where `x` is 4. -/
theorem evaluate_exact_max :
    let _ : DigitLimit := .standard
    let text := ['m', 'a', 'x', ' ', '(', ' ', 'x', ' ', ';', ' ', '-', '1', ',', '5', 'e', '1', '\t',
      ')', ' ', '−', '\n', '3']
    let bindings : List Char → Option (Decimal ⊕ Decimal) := fun x =>
      if x = ['x'] then some (ofDecimal ⟨40, 1⟩) else some (.inr ⟨0, 0⟩)
    ∃ x d, parse text = .ok x ∧ x.evaluate bindings = .ok (ofDecimal d) ∧ d.value = 1 := by
  intro limit text bindings
  let one (c : Char) (h : CharClass.digit.has c = true) : Literal.Digits := ⟨⟨c, h⟩, []⟩
  let low : Literal.Form := ⟨some ⟨'-', rfl⟩, one '1' rfl, some (⟨',', rfl⟩, one '5' rfl),
    some ⟨⟨'e', rfl⟩, none, one '1' rfl⟩⟩
  let three : Literal.Form := ⟨none, one '3' rfl, none, none⟩
  let x : Name := ⟨'x', [], rfl, by decide⟩
  let larger : Exact := .max (.name x rfl) (.literal low)
  let e : Exact := .binary '−' ⟨.sub, 1⟩ rfl (by decide) larger (.literal three)
  have atom (s : Symbol) (h : Roles.isOperand s = true) : (Formula.operand s).Renders false [s] :=
    .operand h
  have call : larger.formula.Renders false _ :=
    .call (o := .bracket ⟨'(', rfl⟩) (c := .bracket ⟨')', rfl⟩) rfl rfl rfl
      (.cons (s := .separator ⟨';', rfl⟩) (atom (.name x) rfl) rfl (.one (atom (.number low) rfl)))
  have written : e.formula.Renders false _ :=
    .binary (p := 1) rfl call (atom (.number three) rfl) (fun _ hq => by cases hq)
      (fun _ hq => by cases hq)
  have spaced : Spaced _ text :=
    .cons (.name maxName) rfl <| .cons (.bracket ⟨'(', rfl⟩) rfl <| .cons (.name x) rfl <|
      .cons (.separator ⟨';', rfl⟩) rfl <| .cons (.number low) rfl <| .cons (.bracket ⟨')', rfl⟩) rfl <|
      .cons (.operator ⟨'−', rfl⟩) rfl <| .last (.number three)
  let σ : List Char → Decimal := fun _ => ⟨40, 1⟩
  have bound : ∀ y ∈ e.variableNames, bindings y = some (ofDecimal (σ y)) := by
    simp [e, larger, x, Exact.variableNames, Name.text, bindings, σ]
  have readable : ∀ s ∈ [Symbol.name maxName, .bracket ⟨'(', rfl⟩, .name x, .separator ⟨';', rfl⟩, .number low,
      .bracket ⟨')', rfl⟩, .operator ⟨'−', rfl⟩, .number three], s.Readable := by
    simp only [List.forall_mem_cons]
    exact ⟨trivial, trivial, trivial, trivial, (by decide : low.Readable), trivial, trivial,
      (by decide : three.Readable), by simp⟩
  obtain ⟨y, d, hy, hd, hvalue⟩ := (evaluate_exact e written spaced bound).1 readable
  have hlow : low.value = -1 * (1 + 5 / 10) * 10 := by
    simp [low, one, Literal.Form.value, Literal.Form.power, Literal.Form.fractionDigits,
      Literal.Exponent.value, Literal.Digits.list, Literal.numeral, Literal.digit, Literal.signFactor]
  have hthree : three.value = 3 := by
    simp [three, one, Literal.Form.value, Literal.Form.power, Literal.Form.fractionDigits,
      Literal.Digits.list, Literal.numeral, Literal.digit, Literal.signFactor]
  refine ⟨y, d, hy, hd, hvalue.trans ?_⟩
  norm_num [e, larger, Exact.denote, BinaryOp.onRat, hlow, hthree, Decimal.value, σ]

end Expression

end Reckoner
