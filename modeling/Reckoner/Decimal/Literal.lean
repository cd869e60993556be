import Reckoner.Decimal.Basic
import Reckoner.Scanner.CharClass
import Reckoner.Scanner.Transformer

/-!
# Decimal literals

A literal is a sign if there is one, digits, a fraction after a decimal mark (`.` or `,`) and an
exponent after an `e`: `9.44`, `-4,5e-3`, `42E10`. The scanner takes the longest literal at the
start of a text: a mark or an `e` that no digit follows is left to whatever comes next, as in
`max(2, x)`. It stores one token for each part. `read` takes a whole text for a literal.
-/
namespace Reckoner.Literal

variable {V : Type}

/-! ## Scanning -/

/-- Where in a literal a scan is. -/
inductive State where
  | start
  | firstDigit
  | digits
  | fractionDigits
  | exponentMark
  | exponentSign
  | exponentFirstDigit
  | exponentDigits
  deriving DecidableEq, Repr

def State.label : State → String
  | .start => "start"
  | .firstDigit => "integral_start"
  | .digits => "integral"
  | .fractionDigits => "fraction"
  | .exponentMark => "exponent_mark"
  | .exponentSign => "exponent_sign"
  | .exponentFirstDigit => "exponent_start"
  | .exponentDigits => "exponent"

def states : List (String × State) :=
  [.start, .firstDigit, .digits, .fractionDigits, .exponentMark, .exponentSign, .exponentFirstDigit,
    .exponentDigits].map fun s => (s.label, s)

/-- Opens the token of a part. -/
def part (key : String) (next : Script V (Verdict State)) : Script V (Verdict State) :=
  .openToken none (some key) [] next

/-- Eats the character and goes on in a state. -/
def eatThen (state : State) : Script V (Verdict State) := .eat (.done (.goto state))

/-- The first digit has to come. -/
def firstDigit (c : Option Char) : Script V (Verdict State) :=
  if CharClass.digit.hasSome c then part "integral" (eatThen .digits)
  else .done (.fail "expected a digit")

/-- A sign or the first digit may come. -/
def start (c : Option Char) : Script V (Verdict State) :=
  if CharClass.sign.hasSome c then part "sign" (eatThen .firstDigit) else firstDigit c

/-- An exponent may come, if a digit follows its mark, or a sign and a digit. -/
def exponentMark (c : Option Char) : Script V (Verdict State) :=
  if CharClass.exponent.hasSome c then
    .peek 1 fun following =>
      if CharClass.digit.hasSome following then part "exponent" (.done (.goto .exponentSign))
      else if CharClass.sign.hasSome following then
        .peek 2 fun afterSign =>
          if CharClass.digit.hasSome afterSign then part "exponent" (.done (.goto .exponentSign))
          else .done .finish
      else .done .finish
  else .done .finish

/-- A further digit may come, or a mark that a digit follows. -/
def digits (c : Option Char) : Script V (Verdict State) :=
  if CharClass.digit.hasSome c then eatThen .digits
  else if CharClass.point.hasSome c then
    .peek 1 fun following =>
      if CharClass.digit.hasSome following then part "fraction" (.done (.goto .fractionDigits))
      else exponentMark c
  else exponentMark c

/-- A further digit of the fraction may come. -/
def fractionDigits (c : Option Char) : Script V (Verdict State) :=
  if CharClass.digit.hasSome c then eatThen .fractionDigits else exponentMark c

/-- The first digit of the exponent has to come. -/
def exponentFirstDigit (c : Option Char) : Script V (Verdict State) :=
  if CharClass.digit.hasSome c then eatThen .exponentDigits
  else .done (.fail "expected an exponent digit")

/-- The exponent's sign or its first digit may come. -/
def exponentSign (c : Option Char) : Script V (Verdict State) :=
  if CharClass.sign.hasSome c then eatThen .exponentFirstDigit else exponentFirstDigit c

/-- A further digit of the exponent may come. -/
def exponentDigits (c : Option Char) : Script V (Verdict State) :=
  if CharClass.digit.hasSome c then eatThen .exponentDigits else .done .finish

def behaviour : State → Option Char → Script V (Verdict State)
  | .start => start
  | .firstDigit => firstDigit
  | .digits => digits
  | .fractionDigits => fractionDigits
  | .exponentMark => exponentMark
  | .exponentSign => exponentSign
  | .exponentFirstDigit => exponentFirstDigit
  | .exponentDigits => exponentDigits

section Scanners

variable [DigitLimit]

/-- Exponents become integers. -/
def transformers : List (String × Transformer) := [("exponent", Transformer.integer)]

/-- The scanner from a state. -/
def scannerFrom (first : State) : Scanner V State where
  mode := .keyed
  start := first
  label := State.label
  named := (states.lookup ·)
  behaviour := behaviour
  transformers := transformers

def scanner : Scanner V State := scannerFrom .start

def scannerNamed (name : String) : Except DefinitionError (Scanner V State) :=
  Scanner.define name states (.name "keyed") transformers State.label behaviour

end Scanners

/-! ## Reading -/

structure Parts where
  sign : Option (List Char) := none
  integral : Option (List Char) := none
  fraction : Option (List Char) := none
  exponent : Option Int := none
  deriving DecidableEq, Repr

inductive ReadError where
  | lex (e : LexError)
  | misuse (m : Misuse)
  /-- A part that every literal has. -/
  | missingPart (key : String)
  /-- The sign and the digits are not converted to an integer. -/
  | conversion (e : Integer.Error)
  deriving DecidableEq, Repr

def ReadError.message : ReadError → String
  | .lex e => e.message
  | .misuse m => m.message
  | .missingPart key => key
  | .conversion e => e.message

/-- The parts of a literal from the tokens of its scan. -/
def Parts.ofRecord : Record (Token V) → Parts
  | .ordered _ => {}
  | .keyed fields =>
    let spelled (key : String) := (fields.lookup key).bind (·.lexeme.chars?)
    { sign := spelled "sign"
      integral := spelled "integral"
      fraction := spelled "fraction"
      exponent := (fields.lookup "exponent").bind fun t =>
        match t.lexeme with
        | .made n => some n
        | .chars _ => none }

variable [DigitLimit]

/-- The number of a literal: its digits as an integer, scaled by the exponent and by the fraction's
length. -/
def Parts.toDecimal (p : Parts) : Except ReadError Decimal :=
  match p.integral with
  | none => .error (.missingPart "integral")
  | some integral =>
    let fraction := p.fraction.getD []
    let text := p.sign.getD [] ++ integral ++ fraction
    match Integer.parse text with
    | .error e => .error (.conversion e)
    | .ok n => .ok (Decimal.ofScaled n (fraction.length - p.exponent.getD 0))

def partsOf (text : List Char) : Except ReadError Parts :=
  match (scanner (V := Unit)).run text with
  | .error m => .error (.misuse m)
  | .ok outcome =>
    match outcome.result with
    | .error e => .error (.lex e)
    | .ok t =>
      if t.consumed = text.length then .ok (Parts.ofRecord t.tokens)
      else .error (.lex (.unexpected text t.consumed "trailing characters"))

/-- The number that a text, less its margins, is a literal of. -/
def read (text : List Char) : Except ReadError Decimal := do
  (← partsOf (strip text)).toDecimal

end Reckoner.Literal
