import Reckoner.Token.Basic
import Reckoner.Text.Conversion

/-!
# Tokens in print

A token is shown with its fields in a fixed order, those without content left out. What is neither text nor
structure (values, and what has been made of lexemes) is shown by functions that may fail, since integers
may be too long to print.
-/
namespace Reckoner

variable {V T : Type}

/-- What a token spells, as messages show it: characters in quotes, anything else bare. -/
def Lexeme.describe (made : T → Except Integer.Error String) : Lexeme T → Except Integer.Error String
  | .chars text => .ok (quoted text)
  | .made value => made value

def describeInt [DigitLimit] (n : Int) : Except Integer.Error String :=
  (Integer.print n).map String.ofList

def kindName : Option Kind → String
  | some k => k.name
  | none => "None"

def describeBool (b : Bool) : String := if b then "True" else "False"

section Describe

variable (value : V → Except Integer.Error String) (made : T → Except Integer.Error String)

mutual

def Token.describe : Token V T → Except Integer.Error String
  | ⟨kind, lexeme, children, closing, v⟩ => do
    let spelled ← lexeme.describe made
    let nested ← describeChildren children
    let held ← v.toList.mapM value
    let fields :=
      (match kind with
        | some k => ["kind=" ++ quoted k.name.toList]
        | none => []) ++
      ["text=" ++ spelled] ++ nested ++
      (match closing with
        | some b => ["closing=" ++ describeBool b]
        | none => []) ++
      held.map ("value=" ++ ·)
    return "Token(" ++ ", ".intercalate fields ++ ")"
termination_by structural t => t

def describeChildren : Option (Record (Token V T)) → Except Integer.Error (List String)
  | none => .ok []
  | some r => do return ["children=" ++ (← describeRecord r)]
termination_by structural r => r

/-- A record in print: a list, or keys with their tokens. -/
def describeRecord : Record (Token V T) → Except Integer.Error String
  | .ordered ts => do return "[" ++ ", ".intercalate (← describeItems ts) ++ "]"
  | .keyed fs => do return "\x7b" ++ ", ".intercalate (← describeFields fs) ++ "\x7d"
termination_by structural r => r

def describeItems : List (Token V T) → Except Integer.Error (List String)
  | [] => .ok []
  | t :: ts => do return (← Token.describe t) :: (← describeItems ts)
termination_by structural ts => ts

def describeFields : List (String × Token V T) → Except Integer.Error (List String)
  | [] => .ok []
  | (k, t) :: fs => do
    return (quoted k.toList ++ ": " ++ (← Token.describe t)) :: (← describeFields fs)
termination_by structural fs => fs

end

end Describe

end Reckoner
