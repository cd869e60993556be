import Reckoner.Scanner.Run
import Reckoner.Text.UpperCase

/-!
# Transformers

What a keyed scanner can make of the characters of a token once its run is over: other characters, or an
integer.
-/
namespace Reckoner.Transformer

/-- Applies a function to the characters of a lexeme; what has been made of them stays as it is. -/
def onChars (f : List Char → Except Misuse Lexeme) : Transformer
  | .chars text => f text
  | .made n => .ok (.made n)

def integer [DigitLimit] : Transformer := onChars fun text =>
  match Integer.parse text with
  | .ok n => .ok (.made n)
  | .error e => .error (.conversion e)

def upper : Transformer := onChars fun text => .ok (.chars (text.flatMap upperCase))

def double : Transformer := onChars fun text => .ok (.chars (text ++ text))

def length : Transformer := onChars fun text => .ok (.made text.length)

def ofName? [DigitLimit] : String → Option Transformer
  | "int" => some integer
  | "upper" => some upper
  | "double" => some double
  | "length" => some length
  | _ => none

end Reckoner.Transformer
