import Reckoner.CommandLine.Argument
import Reckoner.Session.Basic

/-!
# Reading a command line

Options take their values from what is attached to them or from the plain arguments that follow;
what is attached to a short name without values has to be further short names. The option for
expressions takes everything that follows up to `--`, further options included. Expressions and a
prompt exclude each other.
-/
namespace Reckoner.CommandLine

structure Options where
  verbose : Bool := false
  /-- The count of digits after the comma; none if its option was given without a count. -/
  precision : Option Nat := some 2
  /-- The bindings in order, with none where an option was given without a binding. -/
  bindings : List (Option (List Char × Decimal)) := []
  dump : Bool := false
  /-- The lines to take; the standard input's if there are none. -/
  expressions : Option (List (List Char)) := none
  prompt : Option (List Char) := none
  deriving DecidableEq, Repr

/-- A command line read in part: the options, and the arguments that belong to none, the latest
first. -/
structure Reading where
  options : Options := {}
  extras : List (List Char) := []

def Reading.takeFlag (r : Reading) : Flag → Except UsageError Reading
  | .verbose => .ok { r with options := { r.options with verbose := true } }
  | .dump => .ok { r with options := { r.options with dump := true } }
  | .help => .error .help
  | _ => .ok r

def Reading.takeFlags (r : Reading) : List Flag → Except UsageError Reading
  | [] => .ok r
  | f :: fs => do (← r.takeFlag f).takeFlags fs

def Reading.setPrecision (r : Reading) (n : Option Nat) : Reading :=
  { r with options := { r.options with precision := n } }

def Reading.addBinding (r : Reading) (b : Option (List Char × Decimal)) : Reading :=
  { r with options := { r.options with bindings := r.options.bindings ++ [b] } }

variable [DigitLimit] [NameChars]

def Reading.takeValues (r : Reading) (f : Flag) (values : List (List Char)) :
    Except UsageError Reading :=
  match f, values with
  | .precision, [] => .ok (r.setPrecision none)
  | .precision, text :: _ => do
    let n ← (readCount text).mapError fun e => .option .precision (.badCount e)
    return r.setPrecision (some n)
  | .bind, [] => .ok (r.addBinding none)
  | .bind, text :: _ => do
    let b ← (readBinding text).mapError fun e => .option .bind (.badBinding e)
    return r.addBinding (some b)
  | .expression, texts =>
    if r.options.prompt.isSome then .error (.option .expression (.excludedBy .prompt))
    else .ok { r with options := { r.options with expressions := some texts } }
  | .prompt, texts =>
    if r.options.expressions.isSome then .error (.option .prompt (.excludedBy .expression))
    else .ok { r with options := { r.options with prompt := some (texts.headD ['>', ' ']) } }
  | f, _ => r.takeFlag f

/-- The values that an attached text is: `--` is none, but for an option that takes everything. -/
def attachedValues (f : Flag) (text : List Char) : List (List Char) :=
  if f.arity ≠ .rest ∧ text = ['-', '-'] then [] else [text]

/-- What is left of an option argument once its flags without values are unpacked. -/
inductive Unpacked where
  /-- An option whose values follow in other arguments. -/
  | bare (f : Flag)
  | valued (f : Flag) (value : List Char)

/-- Unpacks an option and the text attached to it: to a short name without values, further ones. -/
def unpack (f : Flag) (isShort : Bool) (text : List Char) :
    Except UsageError (List Flag × Unpacked) :=
  if f.arity ≠ .none then .ok ([], .valued f text)
  else match text with
    | [] => .error (.option f (.ignoredValue []))
    | c :: rest =>
      match if isShort then Flag.ofLetter? c else none with
      | none => .error (.option f (.ignoredValue (c :: rest)))
      | some g =>
        if rest = [] then .ok ([f], .bare g)
        else do
          let (flags, last) ← unpack g true rest
          return (f :: flags, last)

/-- Is the argument one that an option may take when it takes everything? -/
def isTakeable : List Char × Argument → Bool
  | (_, .separator) => false
  | _ => true

def Reading.takeAll (r : Reading) : List (List Char × Argument) → Except UsageError Reading
  | [] => .ok r
  | (text, .plain) :: rest => ({ r with extras := text :: r.extras } : Reading).takeAll rest
  | (text, .separator) :: rest => ({ r with extras := text :: r.extras } : Reading).takeAll rest
  | (text, .unknown) :: rest => ({ r with extras := text :: r.extras } : Reading).takeAll rest
  | (_, .option f isShort attached) :: rest => do
    let (flags, last) ← match attached with
      | none => .ok ([], .bare f)
      | some text => unpack f isShort text
    match last with
    | .valued g value => do
      let r ← r.takeFlags flags
      let r ← r.takeValues g (attachedValues g value)
      r.takeAll rest
    | .bare g =>
      match g.arity with
      | .none =>
        let r ← r.takeFlags (flags ++ [g])
        r.takeAll rest
      | .one =>
        match rest with
        | (value, .plain) :: rest =>
          let r ← r.takeFlags flags
          let r ← r.takeValues g [value]
          r.takeAll rest
        | _ => .error (.option g .missingValue)
      | .atMostOne =>
        match rest with
        | (value, .plain) :: rest =>
          let r ← r.takeFlags flags
          let r ← r.takeValues g [value]
          r.takeAll rest
        | rest =>
          let r ← r.takeFlags flags
          let r ← r.takeValues g []
          r.takeAll rest
      | .rest =>
        let r ← r.takeFlags flags
        let r ← r.takeValues g ((rest.takeWhile isTakeable).map (·.1))
        return { r with extras := ((rest.dropWhile isTakeable).map (·.1)).reverse ++ r.extras }

def readOptions (arguments : List (List Char)) : Except UsageError Options := do
  let classified ← classifyAll arguments
  let r ← ({} : Reading).takeAll classified
  if r.extras = [] then return r.options else throw (.unrecognized r.extras.reverse)

end Reckoner.CommandLine
