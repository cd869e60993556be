import Reckoner.Decimal.Basic

/-!
# Scientific notation

A number is written with one digit before the comma, a fixed count of digits after it, and an
exponent unless that is zero. It is rounded on its digits, a half away from zero.
-/
namespace Reckoner.Decimal

/-- One digit, a comma and the rest; only the digit if there is no rest. -/
def withComma : List Char → List Char
  | [] => []
  | [d] => [d]
  | d :: rest => d :: ',' :: rest

section Rendering

variable [DigitLimit]

/-- The first `kept` digits of a positive number of `length` digits as an integer, rounded, and whether
rounding made one digit more of them (99.96 to three digits is 1.00 of the next decade). -/
def leadingDigits (kept length n : Nat) : Except Integer.Error (Nat × Bool) :=
  if kept < length then do
    let unit := pow10 (length - kept)
    let rounded := (n + unit / 2) / unit
    let text ← Integer.print rounded
    return if kept < text.length then (rounded / 10, true) else (rounded, false)
  else .ok (n * pow10 (kept - length), false)

/-- An exponent, which is not written if it is zero. -/
def exponentPart (e : Int) : Except Integer.Error (List Char) :=
  if e = 0 then .ok [] else (Integer.print e).map ('e' :: ·)

/-- The number with `decimals` digits after the comma. -/
def scientific (decimals : Nat) (a : Decimal) : Except Integer.Error (List Char) :=
  let n := a.magnitude.natAbs
  if n = 0 then .ok (withComma (List.replicate (decimals + 1) '0'))
  else do
    let length := (← Integer.print n).length
    let (digits, carried) ← leadingDigits (decimals + 1) length n
    let text ← Integer.print digits
    let position : Int := (length : Int) - 1 - a.places
    let exponent ← exponentPart (if carried then position + 1 else position)
    return (if a.magnitude < 0 then ['-'] else []) ++ withComma text ++ exponent

/-- The number with a count of digits that may be any integer: a negative one is refused. -/
def scientific? (decimals : Int) (a : Decimal) : Except Error (List Char) :=
  if decimals < 0 then
    match Integer.print decimals with
    | .ok _ => .error (.negativeCount decimals)
    | .error e => .error (.conversion e)
  else (scientific decimals.toNat a).mapError .conversion

def describe (typeName : String) (a : Decimal) : Except Integer.Error String := do
  let magnitude := String.ofList (← Integer.print a.magnitude)
  let places := String.ofList (← Integer.print a.places)
  return s!"{typeName}({magnitude}, {places})"

end Rendering

end Reckoner.Decimal
