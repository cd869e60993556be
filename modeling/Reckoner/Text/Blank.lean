import Reckoner.Text.CharRange

/-!
# Blank characters

Two sets: the White_Space property, and the same with the four information separators U+001C to
U+001F, which are what a line loses at its ends.
-/
namespace Reckoner

/-- The White_Space property. -/
def blankRanges : CharRanges :=
  [(0x9, 0xd), (0x20, 0x20), (0x85, 0x85), (0xa0, 0xa0), (0x1680, 0x1680), (0x2000, 0x200a),
   (0x2028, 0x2029), (0x202f, 0x202f), (0x205f, 0x205f), (0x3000, 0x3000)]

/-- White space. -/
def isBlank (c : Char) : Bool := blankRanges.contains c

/-- White space, or one of the information separators U+001C to U+001F. -/
def isMargin (c : Char) : Bool := (0x1c ≤ c.toNat && c.toNat ≤ 0x1f) || isBlank c

/-- A text without the characters of a set at both its ends. -/
def trim (drop : Char → Bool) (t : List Char) : List Char :=
  ((t.dropWhile drop).reverse.dropWhile drop).reverse

/-- A text without its margins. -/
def strip (t : List Char) : List Char := trim isMargin t

end Reckoner
