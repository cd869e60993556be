import Reckoner.Decimal.Literal
import Reckoner.Expression.Operation

/-!
# Lexing expressions

Expressions such as `0.75 + 2 * log(x)` are cut into numbers, names, operators, brackets and the
separators of arguments. Numbers are left to the scanner of literals: on a digit, and on a sign
where an operand is due. So the same sign is an operator in `2-1` and part of a number in `2*-1`. A
name is a run of characters that delimit nothing, and names a function if it is one of the table's.
-/
namespace Reckoner.Lexer

variable {V : Type}

/-- Where in an expression a scan is. -/
inductive State where
  | betweenTokens
  | inName
  deriving DecidableEq, Repr

def State.label : State → String
  | .betweenTokens => "dispatch"
  | .inName => "identifier"

def states : List (String × State) := [.betweenTokens, .inName].map fun s => (s.label, s)

/-- Is an operand due after a token? It is at the start, and after what ends no operand. -/
def expectsOperand (previous : Token V) : Bool :=
  match previous.kind with
  | none | some .operator | some .comma | some .function => true
  | some .bracket => !previous.closing.getD false
  | _ => false

/-- Does the character end a name? -/
def isDelimiter (c : Char) : Bool :=
  Operator.isSymbol c || CharClass.separator.has c || CharClass.bracket.has c ||
    CharClass.whitespace.has c

/-- Opens a token with the current character. -/
def take (kind : Kind) (fields : List (Field V)) (next : State) : Script V (Verdict State) :=
  .openToken (some kind) none fields (.eat (.done (.goto next)))

/-- A character that starts no number. -/
def other : Option Char → Script V (Verdict State)
  | none => .done .finish
  | some c =>
    if Operator.isSymbol c then take .operator [] .betweenTokens
    else if CharClass.separator.has c then take .comma [] .betweenTokens
    else if CharClass.bracket.has c then
      take .bracket [.closing (some (CharClass.closing.has c))] .betweenTokens
    else if CharClass.whitespace.has c then .done (.goto .betweenTokens)
    else take .variable [] .inName

variable [DigitLimit]

/-- A number if the scanner of literals finds one. -/
def number (c : Option Char) : Script V (Verdict State) :=
  .delegate Literal.scanner.tokenizer (some .number) none [] fun found =>
    if found then .done (.goto .betweenTokens) else other c

/-- The next token starts here, unless the character is white space. -/
def betweenTokens (c : Option Char) : Script V (Verdict State) :=
  if CharClass.digit.hasSome c then number c
  else if CharClass.sign.hasSome c then
    .look fun opened => if expectsOperand opened.active then number c else other c
  else other c

/-- A name goes on up to a delimiter; only then is it known which one it is. -/
def inName (c : Option Char) : Script V (Verdict State) :=
  if c.all isDelimiter then
    .look fun opened =>
      if (function? opened.active.text).isSome then
        .update [.kind (some .function)] (betweenTokens c)
      else betweenTokens c
  else .eat (.done (.goto .inName))

def scanner : Scanner V State where
  mode := .ordered
  start := .betweenTokens
  label := State.label
  named := (states.lookup ·)
  behaviour
    | .betweenTokens => betweenTokens
    | .inName => inName

def itemsOf : Record (Token V) → List (Token V)
  | .ordered items => items
  | .keyed _ => []

def lex (text : List Char) : Except Literal.ReadError (List (Token V)) :=
  match scanner.run text with
  | .error m => .error (.misuse m)
  | .ok outcome =>
    match outcome.result with
    | .error e => .error (.lex e)
    | .ok t => .ok (itemsOf t.tokens)

end Reckoner.Lexer
