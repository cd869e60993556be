import Mathlib.Data.List.TakeWhile
import Mathlib.Data.Nat.Digits.Defs
import Reckoner.Decimal.Literal
import Reckoner.Proofs.Decimal.Value

/-!
# Literals as written

A `Form` is a literal taken apart: an optional sign, digits, an optional fraction after its mark, an
optional exponent after its mark. It determines the text, the tokens that a scan should store, and
the rational number that the text denotes by its digits and their places. Main statement: the number
read from the parts of a form has the value that the form denotes (`toDecimal_parts`,
`value_decimal`). The runtime may refuse digits for their number (`Form.Readable`); nothing else can go
wrong (`parse_text`).
-/
namespace Reckoner

namespace CharClass

/-- A character of a class. -/
abbrev Member (k : CharClass) : Type := { c : Char // k.has c = true }

/-- What holds of each of the members holds of every character of the class. -/
theorem forall_has {k : CharClass} {P : Char → Prop} [DecidablePred P]
    (h : (k.members.all fun c => decide (P c)) = true) {c : Char} (hc : k.has c = true) : P c :=
  of_decide_eq_true (List.all_eq_true.1 h c (List.contains_iff_mem.1 hc))

/-- Have the classes no character in common? -/
def apart (k l : CharClass) : Bool := k.members.all fun c => !l.has c

theorem has_eq_false {k l : CharClass} (h : k.apart l = true) {c : Char} (hc : k.has c = true) :
    l.has c = false := by
  refine forall_has (P := fun c => l.has c = false) ?_ hc
  simpa [apart] using h

end CharClass

namespace Literal

open CharClass

/-! ## Forms -/

structure Digits where
  first : Member .digit
  more : List (Member .digit)

structure Exponent where
  mark : Member .exponent
  sign : Option (Member .sign)
  digits : Digits

structure Form where
  sign : Option (Member .sign)
  integral : Digits
  /-- The decimal mark and the digits after it. -/
  fraction : Option (Member .point × Digits)
  exponent : Option Exponent

def spelling (ds : List (Member .digit)) : List Char := ds.map (·.1)

def Digits.list (ds : Digits) : List (Member .digit) := ds.first :: ds.more

def Digits.text (ds : Digits) : List Char := spelling ds.list

def Digits.add (ds : Digits) (d : Member .digit) : Digits := ⟨ds.first, ds.more ++ [d]⟩

theorem Digits.text_add (ds : Digits) (d : Member .digit) : (ds.add d).text = ds.text ++ [d.1] := by
  simp [add, text, list, spelling]

def signText (s : Option (Member .sign)) : List Char := s.elim [] fun c => [c.1]

/-- The exponent less its mark. -/
def Exponent.number (e : Exponent) : List Char := signText e.sign ++ e.digits.text

namespace Form

def fractionText (f : Form) : List Char := f.fraction.elim [] fun x => x.1.1 :: x.2.text

def exponentText (f : Form) : List Char := f.exponent.elim [] fun e => e.mark.1 :: e.number

def text (f : Form) : List Char :=
  signText f.sign ++ (f.integral.text ++ (f.fractionText ++ f.exponentText))

theorem text_eq (f : Form) : f.text = signText f.sign ++ f.integral.first.1 ::
    (spelling f.integral.more ++ (f.fractionText ++ f.exponentText)) := by
  simp [text, Digits.text, Digits.list, spelling]

theorem text_ne_nil (f : Form) : f.text ≠ [] := by simp [text_eq]

/-- What holds of digits, signs and marks holds of every character of a literal. -/
theorem forall_text {P : Char → Prop} (hdigit : ∀ d : Member .digit, P d.1)
    (hsign : ∀ s : Member .sign, P s.1) (hpoint : ∀ m : Member .point, P m.1)
    (hexponent : ∀ m : Member .exponent, P m.1) (f : Form) : ∀ c ∈ f.text, P c := by
  have digits (ds : Digits) : ∀ c ∈ ds.text, P c := by
    intro c hc
    obtain ⟨d, _, rfl⟩ := List.mem_map.1 hc
    exact hdigit d
  have sign (s : Option (Member .sign)) : ∀ c ∈ signText s, P c := by
    cases s with
    | none => simp [signText]
    | some s => simpa [signText] using hsign s
  have fraction : ∀ c ∈ f.fractionText, P c := by
    unfold fractionText
    cases f.fraction with
    | none => simp
    | some x => simpa using ⟨hpoint x.1, digits x.2⟩
  have exponent : ∀ c ∈ f.exponentText, P c := by
    unfold exponentText
    cases f.exponent with
    | none => simp
    | some e =>
      simp only [Option.elim_some, List.forall_mem_cons, Exponent.number, List.forall_mem_append]
      exact ⟨hexponent e.mark, sign e.sign, digits e.digits⟩
  simp only [text, List.forall_mem_append]
  exact ⟨sign f.sign, digits f.integral, fraction, exponent⟩

/-- The digits after the decimal mark. -/
def fractionDigits (f : Form) : List (Member .digit) := f.fraction.elim [] fun x => x.2.list

end Form

/-! ## The number that a form denotes -/

def digit (d : Member .digit) : Nat := d.1.toNat - 48

/-- The natural number that digits denote. -/
def numeral (ds : List (Member .digit)) : Nat := Nat.ofDigits 10 (ds.reverse.map digit)

/-- What a sign multiplies by. -/
def signFactor (s : Option (Member .sign)) : Int := if s.any (·.1 = '-') then -1 else 1

def Exponent.value (e : Exponent) : Int := signFactor e.sign * numeral e.digits.list

namespace Form

/-- The power of ten, zero if none is written. -/
def power (f : Form) : Int := f.exponent.elim 0 Exponent.value

/-- The rational number that a literal denotes: the digits after the mark count as tenths, hundredths
and so on, and the whole is scaled by the power of ten. -/
def value (f : Form) : ℚ :=
  signFactor f.sign *
    (numeral f.integral.list + numeral f.fractionDigits / 10 ^ f.fractionDigits.length) *
      10 ^ f.power

/-- The representation that a literal is read into. -/
def decimal (f : Form) : Decimal :=
  .ofScaled (signFactor f.sign * numeral (f.integral.list ++ f.fractionDigits))
    (f.fractionDigits.length - f.power)

end Form

theorem numeral_append (ds es : List (Member .digit)) :
    numeral (ds ++ es) = numeral ds * 10 ^ es.length + numeral es := by
  simp only [numeral, List.reverse_append, List.map_append, Nat.ofDigits_append, List.length_map,
    List.length_reverse]
  rw [add_comm, mul_comm]

theorem value_decimal (f : Form) : f.decimal.value = f.value := by
  have hscale : (10 : ℚ) ^ f.fractionDigits.length ≠ 0 := by positivity
  have hpower : (10 : ℚ) ^ (-((f.fractionDigits.length : Int) - f.power)) =
      10 ^ f.power / 10 ^ f.fractionDigits.length := by
    rw [neg_sub, zpow_sub₀ (by norm_num), zpow_natCast]
  rw [Form.decimal, Decimal.value_ofScaled, numeral_append, hpower, Form.value]
  push_cast
  field_simp

/-! ## Reading the parts -/

theorem trim_eq_self {drop : Char → Bool} {t : List Char} (h : ∀ c ∈ t, drop c = false) :
    trim drop t = t := by
  have keeps (u : List Char) (hu : ∀ c ∈ u, drop c = false) : u.dropWhile drop = u := by
    cases u with
    | nil => rfl
    | cons c u => simp [hu c (by simp)]
  rw [trim, keeps t h, keeps t.reverse (by simpa using h), List.reverse_reverse]

theorem digitValue?_digit (d : Member .digit) : digitValue? d.1 = some (digit d) :=
  forall_has (P := fun c => digitValue? c = some (c.toNat - 48)) (by decide) d.2

theorem numeral_cons (d : Member .digit) (ds : List (Member .digit)) :
    numeral (d :: ds) = digit d * 10 ^ ds.length + numeral ds := by
  rw [← List.singleton_append, numeral_append]
  simp [numeral]

theorem readMore_spelling :
    ∀ (ds : List (Member .digit)) (n : Nat),
      Integer.readMore n (spelling ds) = some (n * 10 ^ ds.length + numeral ds)
  | [], n => by simp [spelling, Integer.readMore, numeral]
  | d :: ds, n => by
    have hd : d.1 ≠ '_' := forall_has (P := (· ≠ '_')) (by decide) d.2
    have hrest := readMore_spelling ds (10 * n + digit d)
    simp only [spelling] at hrest
    simp only [spelling, List.map_cons]
    rw [Integer.readMore, digitValue?_digit, Option.bind_some, hrest, numeral_cons, List.length_cons]
    · congr 1
      ring
    · exact fun _ _ h _ => hd h

theorem readNat?_text (ds : Digits) : Integer.readNat? ds.text = some (numeral ds.list) := by
  rw [Digits.text, Digits.list, spelling, List.map_cons, Integer.readNat?, digitValue?_digit,
    Option.bind_some, numeral_cons]
  exact readMore_spelling ds.more (digit ds.first)

theorem readSigned?_text (s : Option (Member .sign)) (ds : Digits) :
    Integer.readSigned? (signText s ++ ds.text) = some (signFactor s * numeral ds.list) := by
  have hplus : ds.first.1 ≠ '+' := forall_has (P := (· ≠ '+')) (by decide) ds.first.2
  have hminus : ds.first.1 ≠ '-' := forall_has (P := (· ≠ '-')) (by decide) ds.first.2
  cases s with
  | none =>
    have htext : ds.text = ds.first.1 :: spelling ds.more := rfl
    simp only [signText, Option.elim_none, List.nil_append]
    rw [Integer.readSigned?, readNat?_text]
    · simp [signFactor]
    · exact fun _ h => hplus (List.cons.inj (htext ▸ h)).1
    · exact fun _ h => hminus (List.cons.inj (htext ▸ h)).1
  | some c =>
    obtain ⟨c, hc⟩ := c
    obtain rfl | rfl : c = '+' ∨ c = '-' := by simpa [has, members] using hc
    · simp [signText, Integer.readSigned?, readNat?_text, signFactor]
    · simp [signText, Integer.readSigned?, readNat?_text, signFactor]

theorem trim_text (s : Option (Member .sign)) (ds : Digits) :
    trim isBlank (signText s ++ ds.text) = signText s ++ ds.text := by
  refine trim_eq_self fun c hc => ?_
  rcases List.mem_append.1 hc with hc | hc
  · cases s with
    | none => cases hc
    | some s =>
      rw [List.mem_singleton.1 hc]
      exact forall_has (P := fun c => isBlank c = false) (by decide) s.2
  · obtain ⟨d, _, rfl⟩ := List.mem_map.1 hc
    exact forall_has (P := fun c => isBlank c = false) (by decide) d.2

theorem isAnyDigit_digit (d : Member .digit) : isAnyDigit d.1 = true :=
  forall_has (P := fun c => isAnyDigit c = true) (by decide) d.2

theorem dropSign_text (s : Option (Member .sign)) (ds : Digits) :
    Integer.dropSign (signText s ++ ds.text) = ds.text := by
  cases s with
  | none =>
    have hplus : ds.first.1 ≠ '+' := forall_has (P := (· ≠ '+')) (by decide) ds.first.2
    have hminus : ds.first.1 ≠ '-' := forall_has (P := (· ≠ '-')) (by decide) ds.first.2
    have htext : ds.text = ds.first.1 :: spelling ds.more := rfl
    simp only [signText, Option.elim_none, List.nil_append]
    rw [Integer.dropSign]
    · exact fun _ h => hplus (List.cons.inj (htext ▸ h)).1
    · exact fun _ h => hminus (List.cons.inj (htext ▸ h)).1
  | some c =>
    obtain ⟨c, hc⟩ := c
    obtain rfl | rfl : c = '+' ∨ c = '-' := by simpa [has, members] using hc
    · rfl
    · rfl

/-- What counts against the limit are the digits. -/
theorem numeral_text (s : Option (Member .sign)) (ds : Digits) :
    Integer.numeral (signText s ++ ds.text) = ds.text := by
  rw [Integer.numeral, trim_text, dropSign_text, List.takeWhile_eq_self_iff]
  intro c hc
  obtain ⟨d, _, rfl⟩ := List.mem_map.1 hc
  rw [isAnyDigit_digit, Bool.or_true]

theorem countP_text (ds : Digits) : ds.text.countP isAnyDigit = ds.list.length := by
  rw [Digits.text, spelling, List.countP_map, List.countP_eq_length]
  exact fun d _ => isAnyDigit_digit d

/-- A sign and digits are read as the integer that they denote, if there are not too many of them. -/
theorem parse_text [DigitLimit] (s : Option (Member .sign)) (ds : Digits) :
    Integer.parse (signText s ++ ds.text) =
      if DigitLimit.Allows ds.list.length then .ok (signFactor s * numeral ds.list)
      else .error (.tooLongToRead DigitLimit.most ds.list.length) := by
  have hread : Integer.read? (signText s ++ ds.text) = some (signFactor s * numeral ds.list) := by
    rw [Integer.read?, trim_text, readSigned?_text]
  simp only [Integer.parse, numeral_text, countP_text, readNat?_text, Option.isSome_some, true_and, hread,
    ite_not]

/-! ## The tokens of a form -/

variable {V : Type}

def partToken (text : List Char) : Token V := { lexeme := .chars text }

namespace Form

/-- The tokens of the parts that are written, the exponent as an integer. -/
def record (f : Form) : Record (Token V) :=
  .keyed ((f.sign.map fun c => ("sign", partToken [c.1])).toList ++
    ("integral", partToken f.integral.text) ::
      ((f.fraction.map fun x => ("fraction", partToken x.2.text)).toList ++
        (f.exponent.map fun e => ("exponent", { lexeme := .made e.value })).toList))

def parts (f : Form) : Parts where
  sign := f.sign.map fun c => [c.1]
  integral := some f.integral.text
  fraction := f.fraction.map (·.2.text)
  exponent := f.exponent.map Exponent.value

theorem ofRecord_record (f : Form) : Parts.ofRecord (f.record (V := V)) = f.parts := by
  obtain ⟨sign, integral, fraction, exponent⟩ := f
  cases sign <;> cases fraction <;> cases exponent <;>
    simp [Parts.ofRecord, record, parts, partToken, List.lookup_cons, Lexeme.chars?]

/-- How many digits stand before the exponent: those of the integer that a literal is read into. -/
def width (f : Form) : Nat := f.integral.list.length + f.fractionDigits.length

/-- How many digits the exponent has, none if it is not written. -/
def exponentWidth (f : Form) : Nat := f.exponent.elim 0 (·.digits.list.length)

variable [DigitLimit]

/-- Is the exponent short enough for a scan? -/
def Scannable (f : Form) : Prop := DigitLimit.Allows f.exponentWidth

/-- Are there few enough digits, before the exponent and in it, for the literal to be read? -/
def Readable (f : Form) : Prop := f.Scannable ∧ DigitLimit.Allows f.width

instance (f : Form) : Decidable f.Scannable := inferInstanceAs (Decidable (DigitLimit.Allows _))

instance (f : Form) : Decidable f.Readable := inferInstanceAs (Decidable (_ ∧ _))

/-- A literal has too many digits only if it is longer than the limit. -/
theorem readable_of_allows {f : Form} (h : DigitLimit.Allows f.text.length) : f.Readable := by
  have hfraction : f.fractionDigits.length ≤ f.fractionText.length := by
    rw [fractionDigits, fractionText]
    cases f.fraction <;> simp [Digits.text, spelling]
  have hexponent : f.exponentWidth ≤ f.exponentText.length := by
    rw [exponentWidth, exponentText]
    cases f.exponent with
    | none => simp
    | some e => simp only [Option.elim_some, Exponent.number, Digits.text, spelling, List.length_cons,
        List.length_append, List.length_map]; omega
  have hlength : f.text.length =
      (signText f.sign).length + (f.integral.list.length + (f.fractionText.length + f.exponentText.length)) := by
    simp [text, Digits.text, spelling]
  exact ⟨h.mono (by omega), h.mono (by rw [width]; omega)⟩

/-- Why a literal with too many digits is not read: its exponent is converted first. -/
def readError (f : Form) : ReadError :=
  if f.Scannable then .conversion (.tooLongToRead DigitLimit.most f.width)
  else .misuse (.conversion (.tooLongToRead DigitLimit.most f.exponentWidth))

/-- The number read from the parts of a literal. -/
theorem toDecimal_parts (f : Form) :
    f.parts.toDecimal = if DigitLimit.Allows f.width then .ok f.decimal
      else .error (.conversion (.tooLongToRead DigitLimit.most f.width)) := by
  let joined : Digits := ⟨f.integral.first, f.integral.more ++ f.fractionDigits⟩
  have hsign : f.parts.sign.getD [] = signText f.sign := by
    rw [parts]
    cases f.sign <;> rfl
  have hfraction : f.parts.fraction.getD [] = spelling f.fractionDigits := by
    rw [parts, fractionDigits]
    cases f.fraction <;> rfl
  have hpower : f.parts.exponent.getD 0 = f.power := by
    rw [parts, power]
    cases f.exponent <;> rfl
  have hlist : joined.list = f.integral.list ++ f.fractionDigits := rfl
  have hjoined : f.integral.text ++ spelling f.fractionDigits = joined.text := by
    simp [joined, Digits.text, Digits.list, spelling]
  have hparse := parse_text f.sign joined
  rw [hlist, List.length_append, ← width] at hparse
  unfold Parts.toDecimal
  rw [hsign, hfraction, hpower]
  simp only [parts, List.append_assoc]
  rw [hjoined, hparse]
  by_cases hwidth : DigitLimit.Allows f.width
  · simp [hwidth, decimal, spelling]
  · simp [hwidth]

end Form

end Literal

end Reckoner
