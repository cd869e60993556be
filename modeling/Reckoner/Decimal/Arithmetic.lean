import Reckoner.Decimal.Logarithm
import Reckoner.Expression.Operation

/-!
# Decimals as values of expressions
-/
namespace Reckoner

namespace Decimal

def unary [DigitLimit] (s : Settings) : UnaryOp → Decimal → Except Error Decimal
  | .log10, a => a.log10 s

def binary (s : Settings) : BinaryOp → Decimal → Decimal → Except Error Decimal
  | .add, a, b => .ok (a.add b)
  | .sub, a, b => .ok (a.sub b)
  | .mul, a, b => .ok (a.mul b)
  | .div, a, b => a.div s b
  | .max, a, b => .ok (a.max b)

/-- How an operation fails on a decimal and something else: the maximum has to compare them, the
others need the parts of the right operand. -/
def mismatch : BinaryOp → Error
  | .max => .incomparable
  | _ => .notDecimal

instance [DigitLimit] : Arithmetic Decimal Error where
  inert? _ := none
  unary op a := (unary {} op a).mapError .foreign
  binary op a b := (binary {} op a b).mapError .foreign
  mismatch op _ := .foreign (mismatch op)

end Decimal

/-- Values among which the decimals are. -/
class OfDecimal (V : Type) where
  ofDecimal : Decimal → V

instance : OfDecimal Decimal := ⟨id⟩

instance {W : Type} : OfDecimal (Decimal ⊕ W) := ⟨.inl⟩

end Reckoner
