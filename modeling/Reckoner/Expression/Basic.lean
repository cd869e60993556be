import Reckoner.Decimal.Arithmetic
import Reckoner.Expression.Evaluation
import Reckoner.Expression.Lexer
import Reckoner.Expression.Postorder
import Reckoner.Token.Printer

/-!
# Expressions

An expression is read once, from a text or from tokens that are in postorder already, and evaluated
under any number of bindings.
-/
namespace Reckoner

/-- Tokens in postorder, and the text they were read from. -/
structure Expression (V : Type) where
  source : Option (List Char)
  tokens : List (Token V)

namespace Expression

inductive Error where
  | read (e : Literal.ReadError)
  | order (e : OrderError)
  /-- A token that has no place in postorder. -/
  | grouping (kind : Kind) (text : List Char)
  deriving DecidableEq, Repr

variable {V : Type}

section Reading

variable [DigitLimit] [OfDecimal V]

/-- Gives a number token the number of the literal that its children spell. -/
def giveValue (t : Token V) : Except Literal.ReadError (Token V) :=
  if t.kind = some .number then
    match t.children with
    | some parts => do
      let d ← (Literal.Parts.ofRecord parts).toDecimal
      return { t with value := some (OfDecimal.ofDecimal d), children := none }
    | none => .error (.missingPart "integral")
  else .ok t

def giveValues : List (Token V) → Except Literal.ReadError (List (Token V))
  | [] => .ok []
  | t :: ts => do return (← giveValue t) :: (← giveValues ts)

/-- The expression of a text's tokens in infix order. -/
def ofInfix (text : List Char) (tokens : List (Token V)) : Except Error (Expression V) := do
  let tokens ← (giveValues tokens).mapError .read
  let tokens ← (Postorder.ofInfix tokens).mapError .order
  return ⟨some text, tokens⟩

def parse (text : List Char) : Except Error (Expression V) := do
  let tokens ← (Lexer.lex text).mapError .read
  ofInfix text tokens

/-- A token in postorder: a number token without a value is read from its own text. -/
def readToken (t : Token V) : Except Error (Token V) :=
  match t.kind, t.value with
  | some .bracket, _ => .error (.grouping .bracket t.text)
  | some .comma, _ => .error (.grouping .comma t.text)
  | some .number, none => do
    let d ← (Literal.read t.text).mapError .read
    return { kind := some .number, lexeme := t.lexeme, value := some (OfDecimal.ofDecimal d) }
  | _, _ => .ok t

/-- Tokens in postorder, read one after the other. -/
def readTokens : List (Token V) → Except Error (List (Token V))
  | [] => .ok []
  | t :: ts => do return (← readToken t) :: (← readTokens ts)

/-- The expression that has given tokens in postorder. Whether they make sense shows when it is
evaluated. -/
def ofPostorder (tokens : List (Token V)) : Except Error (Expression V) := do
  return ⟨none, ← readTokens tokens⟩

end Reading

/-- The names of the variables, in the order of their first appearance. -/
def variableNames (e : Expression V) : List (List Char) :=
  ((e.tokens.filter fun t => t.kind = some .variable).map Token.text).eraseDups

def evaluate {E : Type} [Arithmetic V E] (e : Expression V) (bindings : List Char → Option V) :
    Except (EvalError E) V :=
  Evaluation.evaluate bindings e.tokens

def render (e : Expression V) : List Char := List.intercalate [' '] (e.tokens.map Token.text)

section Describe

variable [DigitLimit] (value : V → Except Integer.Error String)

/-- A sequence of tokens in print; a comma sets a single one apart from the token itself. -/
def describeTokens : List (Token V) → Except Integer.Error String
  | [t] => do return "(" ++ (← t.describe value describeInt) ++ ",)"
  | ts => do return "(" ++ ", ".intercalate (← describeItems value describeInt ts) ++ ")"

def describe (e : Expression V) : Except Integer.Error String :=
  match e.source with
  | some text => .ok s!"Expression({quoted text})"
  | none => do return "Expression.from_postfix(" ++ (← describeTokens value e.tokens) ++ ")"

end Describe

end Expression

/-! ## Wordings -/

def OrderError.message : OrderError → String
  | .unexpected kind text => s!"Unexpected {kindName kind} token {quoted text}"
  | .unbalanced text => s!"Unbalanced {quoted text}"
  | .unclosed text => s!"Unclosed {quoted text}"
  | .unranked text => String.ofList text

def Expression.Error.message : Expression.Error → String
  | .read e => e.message
  | .order e => e.message
  | .grouping kind text => s!"No {kind.name} tokens in postfix, got {quoted text}"

/-- The wording of an evaluation error, given that of the operations' own ones. -/
def EvalError.message {E : Type} (own : E → String) : EvalError E → String
  | .noValue text => s!"Number {quoted text} has no value"
  | .unbound name => s!"Unbound variable {quoted name}"
  | .noSuchOperation kind text => s!"No such {kind.name} {quoted text}"
  | .notEvaluable kind text => s!"Cannot evaluate {kindName kind} token {quoted text}"
  | .underflow needed => s!"Less than {needed} element(s) on stack"
  | .residue count => s!"{count} element(s) left on stack, expected 1"
  | .inert typeName => s!"Cannot compute with {typeName}"
  | .cannotApply op _ => s!"Cannot apply {op.name}"
  | .raised e => own e

end Reckoner
