/-!
# Sets of characters given by ranges of code points

The properties of characters that the calculator asks for (blank, digit, part of a word, printable)
are tables of the Unicode standard. A table is a list of closed ranges in ascending order, so a
look-up stops at the first range that starts above the character.
-/
namespace Reckoner

/-- Closed ranges of code points, ascending and disjoint. -/
abbrev CharRanges := List (Nat × Nat)

namespace CharRanges

def holds : CharRanges → Nat → Bool
  | [], _ => false
  | (lo, hi) :: rest, n => if n < lo then false else if n ≤ hi then true else holds rest n

def contains (ranges : CharRanges) (c : Char) : Bool := ranges.holds c.toNat

def start? : CharRanges → Nat → Option Nat
  | [], _ => none
  | (lo, hi) :: rest, n => if n < lo then none else if n ≤ hi then some lo else start? rest n

end CharRanges

end Reckoner
