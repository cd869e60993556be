import Reckoner.Scanner.Error
import Reckoner.Token.Basic

/-!
# What a scan yields

A scan yields tokens and the number of characters they took, or a lexical error; either way it
leaves a log of what happened on the way, the logs of nested scans included. A `Tokenizer` is
anything that scans the start of a text.
-/
namespace Reckoner

/-- Whether a scanner stores its tokens in order or under keys. -/
inductive Mode where
  | ordered
  | keyed
  deriving DecidableEq, Repr

def Mode.ofDesignation? : Designation → Option Mode
  | .name "ordered" => some .ordered
  | .name "keyed" => some .keyed
  | _ => none

/-- The tokens of a successful scan, and how many characters it consumed. -/
structure Tokenization (V : Type) (T : Type := Int) where
  tokens : Record (Token V T)
  consumed : Nat

/-- Something that a state put on record. -/
inductive Note (V : Type) (T : Type := Int) where
  /-- A character looked at, none past the end. -/
  | char (c : Option Char)
  | lexeme (l : Lexeme T)
  /-- The token that was active, as it was then. -/
  | token (t : Token V T)

inductive Event (V : Type) (T : Type := Int) where
  | tokenized (input : List Char) (consumed : Nat)
  /-- A nested scan of the rest of the text failed. -/
  | rejected (rest : List Char) (error : LexError)
  | note (n : Note V T)

/-- How a scan ended, and its log. -/
structure Outcome (V : Type) (T : Type := Int) where
  log : List (Event V T)
  result : Except LexError (Tokenization V T)

/-- A scan of the start of a text. It cannot consume more than there is. -/
structure Tokenizer (V : Type) (T : Type := Int) where
  run : List Char → Except Misuse (Outcome V T)
  consumed_le : ∀ text outcome t, run text = .ok outcome → outcome.result = .ok t →
    t.consumed ≤ text.length

end Reckoner
