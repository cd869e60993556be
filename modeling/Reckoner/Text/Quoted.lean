import Reckoner.Text.Printable

/-!
# Quoted texts

A text in messages stands between quotes, with what cannot be shown escaped: single quotes, or
double ones where the text holds a single quote and no double one.
-/
namespace Reckoner.Quoted

/-- A number below `16 ^ width` in that many lower-case hexadecimal digits. -/
def hex : Nat → Nat → List Char
  | 0, _ => []
  | width + 1, n => hex width (n / 16) ++ [Nat.digitChar (n % 16)]

/-- The quote that encloses a text. -/
def mark (t : List Char) : Char := if t.contains '\'' && !t.contains '"' then '"' else '\''

/-- One character inside the quotes `q`. -/
def escape (q c : Char) : List Char :=
  if c = q || c = '\\' then ['\\', c]
  else if c = '\n' then ['\\', 'n']
  else if c = '\r' then ['\\', 'r']
  else if c = '\t' then ['\\', 't']
  else if isPrintable c then [c]
  else if c.toNat < 0x100 then ['\\', 'x'] ++ hex 2 c.toNat
  else if c.toNat < 0x10000 then ['\\', 'u'] ++ hex 4 c.toNat
  else ['\\', 'U'] ++ hex 8 c.toNat

def encode (t : List Char) : List Char :=
  mark t :: t.flatMap (escape (mark t)) ++ [mark t]

end Reckoner.Quoted

namespace Reckoner

def quoted (t : List Char) : String := String.ofList (Quoted.encode t)

end Reckoner
