import Reckoner.Decimal.Scientific
import Reckoner.Expression.Basic
import Reckoner.Session.Line

/-!
# Sessions

A session takes lines one after the other. A line that can be evaluated is answered with its value, and binds
it to the name that it assigns to, if any; a line at fault is answered with its error, and leaves the bindings
as they are. Two things break a session off: an error that no line is to blame for, and a value that cannot
be printed.
-/
namespace Reckoner

/-- Is the calculator itself at fault, and not the text that it was given? -/
def Expression.Error.isFault : Expression.Error → Bool
  | .read (.lex _) => false
  | .read _ => true
  | .order (.unranked _) => true
  | .order _ => false
  | .grouping _ _ => false

namespace Session

/-- Names with their values; the first entry of a name counts. -/
abbrev Bindings := List (List Char × Decimal)

inductive Error where
  | expression (e : Expression.Error)
  | evaluation (e : EvalError Decimal.Error)
  deriving DecidableEq, Repr

def Error.message : Error → String
  | .expression e => e.message
  | .evaluation e => e.message Decimal.Error.message

/-- What a session breaks off for. -/
inductive Breakdown where
  | fault (e : Expression.Error)
  | unprintable (e : Integer.Error)
  /-- A value is to be printed, but the option for the count of digits came without one. -/
  | noPrecision
  deriving DecidableEq, Repr

def Breakdown.message : Breakdown → String
  | .fault e => e.message
  | .unprintable e => e.message
  | .noPrecision => "no count of digits"

/-- The value of a line, and the text it is printed as. -/
structure Result where
  value : Decimal
  text : List Char
  deriving DecidableEq, Repr

/-- What answers a line. -/
abbrev Reply := Except Error Result

/-- How values are printed. -/
abbrev Format := Decimal → Except Breakdown (List Char)

/-- What a session leaves: its bindings, its replies, and what it has been broken off for. -/
structure Course where
  bindings : Bindings
  replies : List Reply
  breakdown : Option Breakdown

variable [DigitLimit]

/-- Values with a count of digits after the comma, which may be missing. -/
def format : (precision : Option Nat) → Format
  | some precision => fun value => (value.scientific precision).mapError .unprintable
  | none => fun _ => .error .noPrecision

def valueOf (bindings : Bindings) (expression : List Char) : Except Error Decimal := do
  let e ← (Expression.parse (V := Decimal) expression).mapError .expression
  (e.evaluate (bindings.lookup ·)).mapError .evaluation

def bind (bindings : Bindings) (line : Line) (value : Decimal) : Bindings :=
  match line.name with
  | some name => (name, value) :: bindings
  | none => bindings

variable [NameChars]

/-- Takes one line: the bindings after it, and the reply to it. -/
def step (format : Format) (bindings : Bindings) (text : List Char) :
    Except Breakdown (Bindings × Reply) :=
  let line := Line.read text
  match valueOf bindings line.expression with
  | .error (.expression e) =>
    if e.isFault then .error (.fault e) else .ok (bindings, .error (.expression e))
  | .error (.evaluation e) => .ok (bindings, .error (.evaluation e))
  | .ok value => do
    let text ← format value
    return (bind bindings line value, .ok ⟨value, text⟩)

/-- Takes lines, until it breaks off. -/
def run (format : Format) (bindings : Bindings) : List (List Char) → Course
  | [] => ⟨bindings, [], none⟩
  | text :: texts =>
    match step format bindings text with
    | .error e => ⟨bindings, [], some e⟩
    | .ok (bindings, reply) =>
      let course := run format bindings texts
      { course with replies := reply :: course.replies }

def dump (text : List Char) : Except Breakdown (Except Error (List (Token Decimal))) :=
  match Expression.parse (Line.read text).expression with
  | .ok e => .ok (.ok e.tokens)
  | .error e => if e.isFault then .error (.fault e) else .ok (.error (.expression e))

end Session

end Reckoner
