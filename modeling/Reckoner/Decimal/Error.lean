import Reckoner.Text.Conversion

/-!
# What can fail in decimal arithmetic
-/
namespace Reckoner.Decimal

inductive Error where
  | divisionByZero
  /-- The logarithm of zero or of a negative number. -/
  | logarithmDomain
  /-- No power of the argument came close enough to a power of ten. -/
  | reductionFailed
  /-- A negative count of digits after the comma. -/
  | negativeCount (n : Int)
  /-- The number rounds to no finite double. -/
  | doubleOverflow
  /-- An integer is too long to be written, or to be read. -/
  | conversion (e : Integer.Error)
  /-- The right operand is no decimal. -/
  | notDecimal
  /-- The right operand is nothing that a decimal can be compared with. -/
  | incomparable
  deriving DecidableEq, Repr

def Error.message : Error → String
  | .divisionByZero => "division by zero"
  | .logarithmDomain => "math domain error"
  | .reductionFailed => "log10 argument reduction failed"
  | .negativeCount n => s!"Negative decimal count {n}"
  | .doubleOverflow => "integer division result too large for a float"
  | .conversion e => e.message
  | .notDecimal => "not a decimal"
  | .incomparable => "not comparable with a decimal"

end Reckoner.Decimal
