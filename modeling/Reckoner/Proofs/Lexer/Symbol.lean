import Reckoner.Expression.Basic
import Reckoner.Proofs.Formula.Postorder
import Reckoner.Proofs.Literal.Form

/-!
# Symbols of a text

A `Symbol` is what one token of an expression's text may be: a literal, a name, or one of the
characters with a meaning of their own. Each constructor carries what makes it lex as one token, so
that no other text has to be considered. Symbols play the same parts in formulas as their tokens do,
before and after numbers get their values (`keepsRoles_token`, `keepsRoles_valued`).
-/
namespace Reckoner.Lexer

theorem forall_symbol {P : Char → Prop} [DecidablePred P]
    (h : (Operator.table.all fun x => decide (P x.1)) = true) {c : Char}
    (hc : Operator.isSymbol c = true) : P c := by
  obtain ⟨op, hop⟩ := Option.isSome_iff_exists.1 hc
  obtain ⟨before, after, htable, _⟩ := List.lookup_eq_some_iff.1 hop
  exact of_decide_eq_true (List.all_eq_true.1 h (c, op) (by simp [htable]))

/-- A name: no character of it delimits, and it does not start like a number. -/
structure Name where
  first : Char
  more : List Char
  notDigit : CharClass.digit.has first = false
  notDelimiter : (first :: more).any isDelimiter = false

def Name.text (n : Name) : List Char := n.first :: n.more

theorem Name.not_isDelimiter (n : Name) : ∀ c ∈ n.text, isDelimiter c = false := fun c hc =>
  Bool.eq_false_iff.2 (List.any_eq_false.1 n.notDelimiter c hc)

/-- The function of the name, if it is one of the table's. -/
def Name.function? (n : Name) : Option Operation := Reckoner.function? n.text

/-- What one token of a text may be. -/
inductive Symbol where
  | number (f : Literal.Form)
  /-- A variable, or a function if the table has the name. -/
  | name (n : Name)
  | operator (c : { c : Char // Operator.isSymbol c = true })
  | separator (c : CharClass.Member .separator)
  | bracket (c : CharClass.Member .bracket)

namespace Symbol

variable {V : Type}

def text : Symbol → List Char
  | .number f => f.text
  | .name n => n.text
  | .operator c => [c.1]
  | .separator c => [c.1]
  | .bracket c => [c.1]

theorem text_ne_nil (s : Symbol) : s.text ≠ [] := by
  cases s with
  | number f => exact f.text_ne_nil
  | _ => simp [text, Name.text]

/-- White space is in no symbol. -/
theorem not_whitespace (s : Symbol) : ∀ c ∈ s.text, CharClass.whitespace.has c = false := by
  cases s with
  | number f =>
    exact f.forall_text (fun d => CharClass.has_eq_false rfl d.2) (fun s => CharClass.has_eq_false rfl s.2)
      (fun m => CharClass.has_eq_false rfl m.2) (fun m => CharClass.has_eq_false rfl m.2)
  | name n =>
    intro c hc
    have hdelimiter := n.not_isDelimiter c hc
    simp only [isDelimiter, Bool.or_eq_false_iff] at hdelimiter
    exact hdelimiter.2
  | operator c =>
    simpa [text] using forall_symbol (P := fun c => CharClass.whitespace.has c = false) (by decide) c.2
  | separator c => simpa [text] using CharClass.has_eq_false (l := .whitespace) rfl c.2
  | bracket c => simpa [text] using CharClass.has_eq_false (l := .whitespace) rfl c.2

/-- Is the symbol none with an exponent too long for a scan? -/
def Scannable [DigitLimit] : Symbol → Prop
  | .number f => f.Scannable
  | _ => True

/-- Is the symbol none with too many digits to be read? -/
def Readable [DigitLimit] : Symbol → Prop
  | .number f => f.Readable
  | _ => True

theorem Readable.scannable [DigitLimit] {s : Symbol} (h : s.Readable) : s.Scannable := by
  cases s with
  | number f => exact h.1
  | _ => trivial

def token : Symbol → Token V
  | .number f => { Token.spelled .number f.text with children := some f.record }
  | .name n => .spelled (if n.function?.isSome then .function else .variable) n.text
  | .operator c => .spelled .operator [c.1]
  | .separator c => .spelled .comma [c.1]
  | .bracket c => .bracket c.1 (CharClass.closing.has c.1)

theorem text_token (s : Symbol) : (s.token (V := V)).text = s.text := by
  cases s <;> rfl

/-- The token once numbers have their values. -/
def valued [OfDecimal V] : Symbol → Token V
  | .number f => { Token.spelled .number f.text with value := some (OfDecimal.ofDecimal f.decimal) }
  | s => s.token

theorem kind_valued [OfDecimal V] (s : Symbol) : (s.valued (V := V)).kind = (s.token (V := V)).kind := by
  cases s <;> rfl

theorem text_valued [OfDecimal V] (s : Symbol) : (s.valued (V := V)).text = (s.token (V := V)).text := by
  cases s <;> rfl

/-! ## Parts -/

instance : Roles Symbol where
  isOperand
    | .number _ => true
    | .name n => n.function?.isNone
    | _ => false
  precedence?
    | .operator c => (Operator.table.lookup c.1).map Operator.precedence
    | _ => none
  isFunction
    | .name n => n.function?.isSome
    | _ => false
  opens
    | .bracket c => !CharClass.closing.has c.1
    | _ => false
  closes
    | .bracket c => CharClass.closing.has c.1
    | _ => false
  separates
    | .separator _ => true
    | _ => false

theorem keepsRoles_valued [OfDecimal V] : Formula.KeepsRoles (valued : Symbol → Token V) := by
  constructor <;> intro s
  all_goals
    cases s with
    | name n =>
      cases h : n.function? <;> simp [Roles.isOperand, Roles.precedence?, Roles.isFunction,
        Roles.opens, Roles.closes, Roles.separates, valued, token, Token.spelled, h]
    | _ =>
      simp [Roles.isOperand, Roles.precedence?, Roles.isFunction, Roles.opens, Roles.closes,
        Roles.separates, valued, token, Token.spelled, Token.bracket, Token.text, Lexeme.chars?, Operator.ofText?]

/-! ## Where operands are due -/

/-- Is an operand due after the symbol? -/
def leavesDue : Symbol → Bool
  | .number _ => false
  | .name n => n.function?.isSome
  | .operator _ => true
  | .separator _ => true
  | .bracket c => !CharClass.closing.has c.1

theorem expectsOperand_token (s : Symbol) : expectsOperand (s.token (V := V)) = s.leavesDue := by
  cases s with
  | name n => cases h : n.function? <;> simp [expectsOperand, token, Token.spelled, leavesDue, h]
  | _ => simp [expectsOperand, token, Token.spelled, Token.bracket, leavesDue]

/-- Do operands stand where one is due, and operators where none is? -/
def Alternate : (due : Bool) → List Symbol → Prop
  | _, [] => True
  | due, s :: ss => (Roles.isOperand s = true → due = true) ∧
      ((Roles.precedence? s).isSome = true → due = false) ∧ Alternate s.leavesDue ss

theorem alternate_operand {s : Symbol} (h : Roles.isOperand s = true) {ss : List Symbol}
    (hss : Alternate false ss) : Alternate true (s :: ss) := by
  cases s with
  | name n => cases hn : n.function? <;> simp_all [Alternate, Roles.isOperand, Roles.precedence?, leavesDue]
  | _ => simp_all [Alternate, Roles.isOperand, Roles.precedence?, leavesDue]

theorem alternate_operator {s : Symbol} {p : Nat} (h : Roles.precedence? s = some p)
    {ss : List Symbol} (hss : Alternate true ss) : Alternate false (s :: ss) := by
  cases s <;> simp_all [Alternate, Roles.isOperand, Roles.precedence?, leavesDue]

theorem alternate_closing {s : Symbol} (h : Roles.closes s = true) {ss : List Symbol}
    (hss : Alternate false ss) (due : Bool) : Alternate due (s :: ss) := by
  cases s <;> simp_all [Alternate, Roles.isOperand, Roles.precedence?, Roles.closes, leavesDue]

/-- Before arguments, and wherever else a formula starts anew, an operand is due. -/
theorem alternate_opening {s : Symbol}
    (h : Roles.isFunction s = true ∨ Roles.opens s = true ∨ Roles.separates s = true)
    {ss : List Symbol} (hss : Alternate true ss) (due : Bool) : Alternate due (s :: ss) := by
  cases s with
  | name n =>
    cases hn : n.function? <;> simp_all [Alternate, Roles.isOperand, Roles.precedence?,
      Roles.isFunction, Roles.opens, Roles.separates, leavesDue]
  | _ =>
    simp_all [Alternate, Roles.isOperand, Roles.precedence?, Roles.isFunction, Roles.opens,
      Roles.separates, leavesDue]

mutual

/-- A formula is written where an operand is due, and none is due after it. -/
theorem alternate_renders : ∀ {e : Formula Symbol} {b : Bool} {ss : List Symbol}, e.Renders b ss →
    ∀ {us : List Symbol}, Alternate false us → Alternate true (ss ++ us)
  | _, _, _, .operand ha, us, hus => alternate_operand ha hus
  | _, _, _, .binary hp hl hr _ _, us, hus => by
    rw [List.append_assoc, List.cons_append]
    exact alternate_renders hl (alternate_operator hp (alternate_renders hr hus))
  | _, _, _, .group ho hc he, us, hus => by
    rw [List.cons_append, List.append_assoc, List.singleton_append]
    exact alternate_opening (.inr (.inl ho)) (alternate_renders he (alternate_closing hc hus _)) _
  | _, _, _, .call hf ho hc hargs, us, hus => by
    rw [List.cons_append, List.cons_append, List.append_assoc, List.singleton_append]
    refine alternate_opening (.inl hf) (alternate_opening (.inr (.inl ho)) ?_ _) _
    exact alternate_rendersArgs hargs (alternate_closing hc hus)
  | _, _, _, .bracket ho hc he, us, hus => by
    rw [List.cons_append, List.append_assoc, List.singleton_append]
    exact alternate_opening (.inr (.inl ho)) (alternate_renders he (alternate_closing hc hus _)) _

theorem alternate_rendersArgs : ∀ {es : List (Formula Symbol)} {ss : List Symbol},
    Formula.RendersArgs es ss → ∀ {us : List Symbol}, (∀ due, Alternate due us) →
      Alternate true (ss ++ us)
  | _, _, .nil, us, hus => hus true
  | _, _, .one he, us, hus => alternate_renders he (hus false)
  | _, _, .cons he hs hes, us, hus => by
    rw [List.append_assoc, List.cons_append]
    exact alternate_renders he (alternate_opening (.inr (.inr hs)) (alternate_rendersArgs hes hus) _)

end

end Symbol

end Reckoner.Lexer
