import Reckoner.Proofs.Evaluation.Stack
import Reckoner.Proofs.Lexer.Spacing

/-!
# From a text to an expression

A text is read symbol by symbol: the lexer's tokens are those of the symbols, number tokens get the
numbers that their symbols stand for, and what is left to go wrong is the order (`parse_cut`). If the
symbols write a formula, nothing does (`parse_of_cut`). A literal with too many digits
comes before all that (`parse_cut_overlong`). A single operand is an expression that has the operand's value
(`parse_operand`).
-/
namespace Reckoner.Expression

open Lexer OfDecimal

variable {V : Type} [OfDecimal V] {ss : List Symbol} {text : List Char} {e : Formula Symbol} {b : Bool}

/-- White space between a formula's symbols is enough to tell them apart. -/
theorem cut_renders (he : e.Renders b ss) (hs : Spaced ss text) : Cut true ss text := by
  have hss : Symbol.Alternate true (ss ++ []) := Symbol.alternate_renders he trivial
  rw [List.append_nil] at hss
  exact cut_of_spaced hs hss

section

variable [DigitLimit]

theorem giveValue_token {s : Symbol} (h : s.Readable) : giveValue (V := V) s.token = .ok s.valued := by
  cases s with
  | number f =>
    simp only [giveValue, Symbol.token, Literal.Form.ofRecord_record, Literal.Form.toDecimal_parts,
      if_pos (show f.Readable from h).2, bind, Except.bind, pure, Except.pure]
    rfl
  | name n =>
    cases hn : n.function? <;> simp [giveValue, Symbol.token, Token.spelled, Symbol.valued, hn]
  | _ => simp [giveValue, Symbol.token, Symbol.valued, Token.spelled, Token.bracket]

theorem giveValue_token_overlong {f : Literal.Form} (hscan : f.Scannable) (h : ¬ f.Readable) :
    giveValue (V := V) (Symbol.number f).token = .error f.readError := by
  have hwidth : ¬ DigitLimit.Allows f.width := fun hwidth => h ⟨hscan, hwidth⟩
  simp only [giveValue, Symbol.token, Literal.Form.ofRecord_record, Literal.Form.toDecimal_parts,
    if_neg hwidth, Literal.Form.readError, if_pos hscan]
  rfl

theorem giveValues_token : ∀ {ss : List Symbol}, (∀ s ∈ ss, s.Readable) →
    giveValues (V := V) (ss.map Symbol.token) = .ok (ss.map Symbol.valued)
  | [], _ => rfl
  | s :: ss, h => by
    rw [List.forall_mem_cons] at h
    simp only [List.map_cons, giveValues, giveValue_token h.1, giveValues_token h.2, bind, Except.bind, pure,
      Except.pure]

/-- The first literal with too many digits is what stops the reading. -/
theorem giveValues_token_overlong : ∀ {ss : List Symbol}, (∀ s ∈ ss, s.Scannable) →
    (¬ ∀ s ∈ ss, s.Readable) → ∃ f, Symbol.number f ∈ ss ∧ ¬ f.Readable ∧
      giveValues (V := V) (ss.map Symbol.token) = .error f.readError
  | [], _, h => absurd (by simp) h
  | s :: ss, hscan, h => by
    rw [List.forall_mem_cons] at hscan h
    by_cases hfirst : s.Readable
    · obtain ⟨f, hmem, hf, hread⟩ := giveValues_token_overlong hscan.2 fun hrest => h ⟨hfirst, hrest⟩
      refine ⟨f, List.mem_cons_of_mem s hmem, hf, ?_⟩
      simp only [List.map_cons, giveValues, giveValue_token hfirst, hread, bind, Except.bind]
    · cases s with
      | number f =>
        refine ⟨f, List.mem_cons_self, hfirst, ?_⟩
        simp only [List.map_cons, giveValues, giveValue_token_overlong hscan.1 hfirst, bind, Except.bind]
      | _ => exact absurd trivial hfirst

/-- Every text without overlong literals is read as far as its tokens can be put in postorder. -/
theorem parse_cut (hs : Cut true ss text) (hread : ∀ s ∈ ss, s.Readable) :
    parse (V := V) text =
      ((Postorder.ofInfix (ss.map Symbol.valued)).mapError .order).map fun ts => ⟨some text, ts⟩ := by
  simp only [parse, lex_cut hs fun s hmem => (hread s hmem).scannable, ofInfix, Except.mapError,
    giveValues_token hread, bind, Except.bind, pure, Except.pure]
  cases Postorder.ofInfix (ss.map (Symbol.valued (V := V))) <;> rfl

/-- A text with an overlong literal is not read, whatever else is in it. -/
theorem parse_cut_overlong (hs : Cut true ss text) (hread : ¬ ∀ s ∈ ss, s.Readable) :
    ∃ f, Symbol.number f ∈ ss ∧ ¬ f.Readable ∧ parse (V := V) text = .error (.read f.readError) := by
  by_cases hscan : ∀ s ∈ ss, s.Scannable
  · obtain ⟨f, hmem, hf, hgive⟩ := giveValues_token_overlong (V := V) hscan hread
    refine ⟨f, hmem, hf, ?_⟩
    simp only [parse, lex_cut hs hscan, ofInfix, hgive, Except.mapError, bind, Except.bind]
  · obtain ⟨f, hmem, hf, hlex⟩ := lex_cut_overlong (V := V) hs hscan
    refine ⟨f, hmem, fun h => hf h.1, ?_⟩
    simp only [parse, hlex, Literal.Form.readError, if_neg hf, Except.mapError, bind, Except.bind]

/-- The symbols of a text that is read have no more digits than can be. -/
theorem readable_of_parse {x : Expression V} (hs : Cut true ss text) (h : parse text = .ok x) :
    ∀ s ∈ ss, s.Readable := by
  by_contra hread
  obtain ⟨f, -, -, hfail⟩ := parse_cut_overlong (V := V) hs hread
  rw [h] at hfail
  cases hfail

/-- A formula's text is read into the formula's postorder. -/
theorem parse_of_cut (he : e.Renders b ss) (hs : Cut true ss text) (hread : ∀ s ∈ ss, s.Readable) :
    parse (V := V) text = .ok ⟨some text, e.postorder.map Symbol.valued⟩ := by
  rw [parse_cut hs hread, Postorder.ofInfix_renders (he.map Symbol.keepsRoles_valued), Formula.postorder_map]
  rfl

end

/-! ## Single operands -/

variable {E : Type} [Arithmetic V E]

theorem step_name {n : Name} (hn : n.function? = none) {bindings : List Char → Option V} {v : V}
    (h : bindings n.text = some v) (stack : List V) :
    Evaluation.step bindings stack (Symbol.valued (.name n)) = .ok (v :: stack) := by
  simp [Evaluation.step, Symbol.valued, Symbol.token, Token.spelled, Token.text, Lexeme.chars?, hn, h]

/-- An operand by itself, with white space around it, has the value that its token pushes. -/
theorem parse_operand [DigitLimit] {s : Symbol} (hs : Roles.isOperand s = true)
    (hread : s.Readable) (h : Spaced [s] text) :
    ∃ x : Expression V, parse text = .ok x ∧ ∀ (bindings : List Char → Option V) (v : V),
      (∀ stack, Evaluation.step bindings stack s.valued = .ok (v :: stack)) →
        x.evaluate bindings = .ok v := by
  have hwritten : (Formula.operand s).Renders false [s] := .operand hs
  exact ⟨_, parse_of_cut hwritten (cut_renders hwritten h) (by simpa using hread),
    fun bindings v hv => (Evaluation.pushes_of_step hv).evaluate⟩

end Reckoner.Expression
