import Reckoner.Decimal.Basic

/-!
# The decimal logarithm

Everything is done on integers scaled by `10 ^ logDigits`. The argument is written as a mantissa in
[0.7, 7) and a power of ten. The smallest power of the argument whose mantissa falls in [0.7, 1.3)
is sought: there `ln (1 + x) = x - x² / 2 + x³ / 3 - …` converges quickly. The decades counted on
the way are added to the series, and the sum is divided by the power. Every division cuts off toward
zero.
-/
namespace Reckoner.Decimal

/-- The number of digits of a natural number; zero has one. -/
def digitCount (n : Nat) : Nat := (Integer.digits n).length

/-- `n · 10 ^ k`, cut off to an integer. -/
def scale10 (n : Nat) (k : Int) : Nat :=
  if 0 ≤ k then n * pow10 k.toNat else n / pow10 (-k).toNat

/-- The decade that brings `n · 10 ^ -places` into [0.7, 7). -/
def decade (n : Nat) (places : Int) : Int :=
  let length := digitCount n
  let position : Int := (length : Int) - 1 - places
  if 7 ≤ n / pow10 (length - 1) then position + 1 else position

/-- The number `n · 10 ^ -places` as a mantissa scaled by `10 ^ digits`, and its decade. -/
def mantissa (n : Nat) (places : Int) (digits : Nat) : Nat × Int :=
  let shift := decade n places
  (scale10 n ((digits : Int) - places - shift), shift)

/-- The mantissa and the decade of a number whose digits can be written: the decade shows in them. -/
def normalize [DigitLimit] (n : Nat) (places : Int) (digits : Nat) : Except Integer.Error (Nat × Int) :=
  (Integer.print n).map fun _ => mantissa n places digits

/-- A power of the argument: its exponent, its mantissa and its decade. -/
structure Reduction where
  power : Nat
  mantissa : Nat
  shift : Int
  deriving DecidableEq, Repr

/-- Does the mantissa lie in [0.7, 1.3)? -/
def inBand (digits mantissa : Nat) : Bool :=
  7 * pow10 digits / 10 ≤ mantissa && mantissa < 13 * pow10 digits / 10

section Reduction

variable [DigitLimit]

/-- The next power of the argument whose mantissa is `base` and whose decade is `baseShift`. -/
def Reduction.next (digits base : Nat) (baseShift : Int) (r : Reduction) : Except Error Reduction := do
  let (mantissa, extra) ← (normalize (r.mantissa * base) (2 * digits) digits).mapError .conversion
  return ⟨r.power + 1, mantissa, r.shift + (baseShift + extra)⟩

/-- The first power in the band, of `count` powers from `r` on. -/
def reduceFrom (digits base : Nat) (baseShift : Int) :
    (count : Nat) → Reduction → Except Error Reduction
  | 0, _ => .error .reductionFailed
  | count + 1, r =>
    if inBand digits r.mantissa then .ok r
    else do reduceFrom digits base baseShift count (← r.next digits base baseShift)

/-- The smallest power of a positive number whose mantissa lies in the band. -/
def reduce (s : Settings) (n places : Nat) : Except Error Reduction := do
  let (base, shift) ← (normalize n places s.logDigits).mapError .conversion
  reduceFrom s.logDigits base shift s.maxPower ⟨1, base, shift⟩

end Reduction

/-- `count` terms of the series for `ln (1 + delta)`, from the `n`-th on, `term` being its
numerator. -/
def seriesFrom (scale delta : Int) : (count : Nat) → (n : Int) → (term : Int) → Int
  | 0, _, _ => 0
  | count + 1, n, term =>
    term.tdiv n + seriesFrom scale delta count (n + 1) (-((term * delta).tdiv scale))

/-- `ln (1 + delta)`, scaled as `delta` is. -/
def series (s : Settings) (delta : Int) : Int :=
  seriesFrom (pow10 s.logDigits) delta s.logTerms 1 delta

/-- The logarithm to the base ten of a positive number, with `logDigits` places. -/
def log10 [DigitLimit] (s : Settings) (a : Decimal) : Except Error Decimal :=
  if a.magnitude ≤ 0 then .error .logarithmDomain
  else do
    let r ← reduce s a.magnitude.toNat a.places
    let scale : Int := pow10 s.logDigits
    let decimalLog := (series s (r.mantissa - scale) * s.invLn10).tdiv scale
    return ⟨(decimalLog + r.shift * scale).tdiv r.power, s.logDigits⟩

end Reckoner.Decimal
