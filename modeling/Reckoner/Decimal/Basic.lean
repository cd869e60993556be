import Reckoner.Decimal.Error

/-!
# Decimal numbers

A decimal is an integer magnitude and a count of decimal places: `magnitude · 10 ^ -places`.
Addition, subtraction, multiplication, negation, comparison and maximum are exact; only division has
to stop somewhere, and it cuts off digits without rounding. A number has many representations (1.5
is also 1.50), and operations keep the one that their operands lead to.
-/
namespace Reckoner

/-- The number `magnitude · 10 ^ -places`. -/
structure Decimal where
  magnitude : Int
  places : Nat
  deriving DecidableEq, Repr

namespace Decimal

/-- How far inexact operations are carried. -/
structure Settings where
  /-- Places of a quotient beyond those of the dividend. -/
  extraDigits : Nat := 20
  /-- Digits with which logarithms are computed. -/
  logDigits : Nat := 40
  /-- Terms of the logarithm's series. -/
  logTerms : Nat := 60
  /-- The first `logDigits` digits of `1 / ln 10`, as an integer. -/
  invLn10 : Nat := 4342944819032518276511289189166050822943
  /-- The powers of the argument among which the logarithm looks. -/
  maxPower : Nat := 16
  deriving DecidableEq, Repr

def pow10 (k : Nat) : Nat := Nat.pow 10 k

/-- The number `m · 10 ^ -p` for any integer `p`: a decimal has no negative places. -/
def ofScaled (m p : Int) : Decimal :=
  if p < 0 then ⟨m * pow10 (-p).toNat, 0⟩ else ⟨m, p.toNat⟩

/-- The magnitude that a number has when written with `p` places, at least its own. -/
def magnitudeAt (p : Nat) (a : Decimal) : Int := a.magnitude * pow10 (p - a.places)

/-- The places with which both numbers can be written. -/
def commonPlaces (a b : Decimal) : Nat := max a.places b.places

/-! ## Exact operations -/

/-- The sum, with the places of the finer operand. -/
def add (a b : Decimal) : Decimal :=
  let p := commonPlaces a b
  ⟨a.magnitudeAt p + b.magnitudeAt p, p⟩

/-- The difference, with the places of the finer operand. -/
def sub (a b : Decimal) : Decimal :=
  let p := commonPlaces a b
  ⟨a.magnitudeAt p - b.magnitudeAt p, p⟩

/-- The product, with the places of both operands together. -/
def mul (a b : Decimal) : Decimal := ⟨a.magnitude * b.magnitude, a.places + b.places⟩

def neg (a : Decimal) : Decimal := ⟨-a.magnitude, a.places⟩

/-- The order of two numbers by value. -/
def cmp (a b : Decimal) : Ordering :=
  let p := commonPlaces a b
  compare (a.magnitudeAt p) (b.magnitudeAt p)

/-- The larger number; the left one if they are equal. -/
def max (a b : Decimal) : Decimal := if (cmp b a).isGT then b else a

/-! ## Division -/

/-- The quotient, with `extraDigits` more places than the dividend and cut off there. -/
def div (s : Settings) (a b : Decimal) : Except Error Decimal :=
  if b.magnitude = 0 then .error .divisionByZero
  else
    let dividend := a.magnitude * pow10 (s.extraDigits + b.places)
    .ok ⟨dividend.tdiv b.magnitude, a.places + s.extraDigits⟩

/-! ## One representative of each value -/

/-- Drops trailing zeros of the magnitude while there are places left. -/
def stripZeros : Int → Nat → Decimal
  | m, 0 => ⟨m, 0⟩
  | m, p + 1 => if m % 10 = 0 then stripZeros (m / 10) p else ⟨m, p + 1⟩

/-- The representation with the fewest places. -/
def canonical (a : Decimal) : Decimal := stripZeros a.magnitude a.places

/-- The entries whose number differs from those of all earlier entries. -/
def distinctBy {α : Type} (number : α → Decimal) (entries : List α) : List α :=
  entries.foldl (fun kept e =>
    if kept.any fun k => canonical (number k) = canonical (number e) then kept else kept ++ [e]) []

/-- The number of digits of the magnitude, found by writing them. -/
def rawLength [DigitLimit] (a : Decimal) : Except Integer.Error Nat :=
  (Integer.print a.magnitude.natAbs).map List.length

end Decimal

end Reckoner
