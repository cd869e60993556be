import Reckoner.Decimal.Basic

/-!
# The nearest double

A double is given by its 64 bits. The quotient of two natural numbers is rounded to the nearest
double, a tie to the even one; with the exponent bounded below, the same rounding serves subnormal
numbers, and the carry out of the fraction field is the carry into the exponent field.
-/
namespace Reckoner.Decimal

/-- The quotient rounded to the nearest integer, a tie to the even one. -/
def roundDiv (a b : Nat) : Nat :=
  let q := a / b
  let twice := 2 * (a % b)
  if twice < b then q
  else if b < twice then q + 1
  else if q % 2 = 0 then q else q + 1

/-- The largest `e` with `2 ^ e ≤ a / b`, of two positive numbers. -/
def binaryExponent (a b : Nat) : Int :=
  let e : Int := (a.log2 : Int) - b.log2
  let reached := if 0 ≤ e then b <<< e.toNat ≤ a else b ≤ a <<< (-e).toNat
  if reached then e else e - 1

/-- The bits of the double nearest to `a / b`, exponent and fraction, without a bound above. -/
def ratioBits (a b : Nat) : Nat :=
  if a = 0 then 0
  else
    let e := Max.max (binaryExponent a b) (-1022)
    let q := e - 52
    let fraction := if 0 ≤ q then roundDiv a (b <<< q.toNat) else roundDiv (a <<< (-q).toNat) b
    (e + 1022).toNat <<< 52 + fraction

def infinityBits : Nat := 0x7ff0000000000000

def signBit : Nat := 0x8000000000000000

/-- The bits of the double nearest to the number; a negative number keeps its sign at zero. -/
def toBinary64 (a : Decimal) : Except Error Nat :=
  let bits := ratioBits a.magnitude.natAbs (pow10 a.places)
  if infinityBits ≤ bits then .error .doubleOverflow
  else .ok (if a.magnitude < 0 then signBit + bits else bits)

end Reckoner.Decimal
