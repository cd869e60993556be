import Reckoner.Text.Blank
import Reckoner.Text.Digit

/-!
# Integers in writing

An integer is written with an optional sign and digits of any script, single underscores between the
digits and white space around the whole. It is printed in ASCII digits, with a sign only if
negative.
-/
namespace Reckoner.Integer

/-- Reads the digits after a first one, `n` being the value so far. -/
def readMore (n : Nat) : List Char → Option Nat
  | [] => some n
  | '_' :: c :: rest => (digitValue? c).bind fun d => readMore (10 * n + d) rest
  | c :: rest => (digitValue? c).bind fun d => readMore (10 * n + d) rest

/-- Reads an unsigned integer: a digit first, and no underscore at the end or beside another. -/
def readNat? : List Char → Option Nat
  | [] => none
  | c :: rest => (digitValue? c).bind fun d => readMore d rest

/-- Reads an integer with an optional sign. -/
def readSigned? : List Char → Option Int
  | '+' :: rest => (readNat? rest).map Int.ofNat
  | '-' :: rest => (readNat? rest).map fun n => -(n : Int)
  | t => (readNat? t).map Int.ofNat

def read? (t : List Char) : Option Int := readSigned? (trim isBlank t)

/-- The digits of a natural number, most significant first. -/
def digits (n : Nat) : List Char := Nat.toDigits 10 n

/-- An integer in ASCII digits. -/
def write (n : Int) : List Char := if n < 0 then '-' :: digits n.natAbs else digits n.natAbs

end Reckoner.Integer
