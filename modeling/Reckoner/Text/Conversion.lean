import Reckoner.Text.Integer
import Reckoner.Text.Quoted

/-!
# Integers and their digits

The runtime limits how many decimal digits an integer may have that is read from its digits or written in
them: such conversions take time that grows with the square of the length. The limit is a setting of the whole
process, 4300 digits unless it is changed or lifted, and nothing but the number of digits counts: leading
zeros do, a sign does not. Every conversion goes through `parse` and `print`.
-/
namespace Reckoner

/-- The setting of the process that limits conversions. -/
class DigitLimit where
  /-- The most digits that are converted, or zero if there is no limit. -/
  most : Nat
  /-- A limit below 640 digits cannot be set. -/
  valid : most = 0 ∨ 640 ≤ most

namespace DigitLimit

/-- The setting unless it is changed. -/
@[reducible] def standard : DigitLimit := ⟨4300, by decide⟩

@[reducible] def lifted : DigitLimit := ⟨0, by decide⟩

/-- Is an integer of that many digits converted? -/
def Allows [DigitLimit] (count : Nat) : Prop := most = 0 ∨ count ≤ most

instance [DigitLimit] (count : Nat) : Decidable (Allows count) :=
  inferInstanceAs (Decidable (_ ∨ _))

theorem Allows.mono [DigitLimit] {m n : Nat} (h : Allows n) (hle : m ≤ n) : Allows m :=
  h.imp_right (Nat.le_trans hle)

/-- No limit is low enough to refuse this many digits. -/
theorem allows_of_le [DigitLimit] {count : Nat} (h : count ≤ 640) : Allows count :=
  valid.imp_right (Nat.le_trans h)

end DigitLimit

namespace Integer

inductive Error where
  /-- The text is no integer. -/
  | malformed (text : List Char)
  | tooLongToRead (most count : Nat)
  | tooLongToPrint (most : Nat)
  deriving DecidableEq, Repr

def Error.message : Error → String
  | .malformed text => s!"invalid literal for int() with base 10: {quoted text}"
  | .tooLongToRead most count =>
    s!"Exceeds the limit ({most} digits) for integer string conversion: value has {count} digits; " ++
      "use sys.set_int_max_str_digits() to increase the limit"
  | .tooLongToPrint most =>
    s!"Exceeds the limit ({most} digits) for integer string conversion; " ++
      "use sys.set_int_max_str_digits() to increase the limit"

def dropSign : List Char → List Char
  | '+' :: rest => rest
  | '-' :: rest => rest
  | t => t

/-- The digits, with underscores among them, that follow the white space and the sign. -/
def numeral (t : List Char) : List Char :=
  (dropSign (trim isBlank t)).takeWhile fun c => c = '_' || isAnyDigit c

variable [DigitLimit]

/-- Reads an integer. Its digits are counted before it is known whether anything follows them. -/
def parse (t : List Char) : Except Error Int :=
  let count := (numeral t).countP isAnyDigit
  if (readNat? (numeral t)).isSome ∧ ¬ DigitLimit.Allows count then
    .error (.tooLongToRead DigitLimit.most count)
  else
    match read? t with
    | some n => .ok n
    | none => .error (.malformed t)

def print (n : Int) : Except Error (List Char) :=
  if DigitLimit.Allows (digits n.natAbs).length then .ok (write n)
  else .error (.tooLongToPrint DigitLimit.most)

end Integer

end Reckoner
