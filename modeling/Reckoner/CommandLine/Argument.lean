import Reckoner.CommandLine.Flag

/-!
# Arguments one by one

Each argument is first looked at by itself: it is an option with or without an attached value, the
separator `--` after which there are no more options, or plain. What looks like a negative number is
plain, as is what starts with a dash but holds a space.
-/
namespace Reckoner.CommandLine

/-- An argument looked at by itself. -/
inductive Argument where
  | plain
  | separator
  /-- An option that does not exist. -/
  | unknown
  /-- An option, and the text attached to it. -/
  | option (f : Flag) (isShort : Bool) (attached : Option (List Char))
  deriving DecidableEq, Repr

/-- A text up to the first `=`, and what follows it. -/
def splitEquals : List Char → List Char × Option (List Char)
  | [] => ([], none)
  | '=' :: rest => ([], some rest)
  | c :: rest =>
    let (before, value) := splitEquals rest
    (c :: before, value)

/-- Is it a dash and digits, perhaps with a point among them? A line feed may follow. -/
def looksNegative (text : List Char) : Bool :=
  match text with
  | '-' :: body =>
    let body := if body.getLast? = some '\n' then body.dropLast else body
    match body.dropWhile isAnyDigit with
    | [] => body ≠ []
    | '.' :: decimals => decimals ≠ [] && decimals.all isAnyDigit
    | _ => false
  | _ => false

/-- A text that starts with a dash and names no option in full: the start of a long name, a short
name with a value or with further short names attached, or something else. -/
def classifyInexact (text : List Char) : Except UsageError Argument :=
  let otherwise : Argument := if looksNegative text || text.contains ' ' then .plain else .unknown
  match text with
  | '-' :: '-' :: _ =>
    let (start, value) := splitEquals text
    match Flag.all.filter fun f => start.isPrefixOf f.long with
    | [] => .ok otherwise
    | [f] => .ok (.option f false value)
    | candidates => .error (.ambiguous text candidates)
  | _ :: c :: rest =>
    match Flag.ofLetter? c with
    | some f => .ok (.option f true (some rest))
    | none => .ok otherwise
  | _ => .ok .plain

/-- Looks at an argument by itself. -/
def classify (text : List Char) : Except UsageError Argument :=
  match text with
  | '-' :: _ :: _ =>
    let isShort (name : List Char) : Bool := name.length = 2
    match Flag.ofName? text with
    | some f => .ok (.option f (isShort text) none)
    | none =>
      let (name, value) := splitEquals text
      match value, Flag.ofName? name with
      | some value, some f => .ok (.option f (isShort name) (some value))
      | _, _ => classifyInexact text
  | _ => .ok .plain

/-- Looks at arguments one by one, up to the separator; after it all are plain. -/
def classifyAll : List (List Char) → Except UsageError (List (List Char × Argument))
  | [] => .ok []
  | text :: rest =>
    if text = ['-', '-'] then .ok ((text, .separator) :: rest.map fun t => (t, .plain))
    else do
      let a ← classify text
      return (text, a) :: (← classifyAll rest)

end Reckoner.CommandLine
