import Reckoner.Proofs.Lexer.Symbol
import Reckoner.Proofs.Literal.Longest

/-!
# Cutting texts into symbols

A text is cut into symbols by rules on what follows each of them: a literal goes on as far as it can,
a name up to a delimiter, and a sign belongs to a number where an operand is due and a digit follows.
`Cut` states these rules without the lexer, every text can be cut (`exists_cut`), and a scan keeps to the
rules (`runFrom_cut`), as long as it meets no literal whose exponent is too long (`runFrom_cut_overlong`).
Main theorem `lex_lossless`: the tokens of a text are slices of it, and only white space is left out.
-/
namespace Reckoner.Lexer

open Lexer.Symbol

variable {V : Type}

/-! ## Cuts -/

/-- Is the symbol lexed by itself before `rest`? It depends on whether an operand is due: there, a
sign before a digit starts a number, and elsewhere no number has a sign. -/
def Symbol.Stands (due : Bool) (rest : List Char) : Symbol → Prop
  | .number f => f.Ends rest ∧ (f.sign.isSome = true → due = true)
  | .name _ => rest.head?.all isDelimiter = true
  | .operator c => CharClass.sign.has c.1 = true → due = true →
      CharClass.digit.hasSome rest.head? = false
  | .separator _ => True
  | .bracket _ => True

/-- The text is cut into symbols with white space anywhere between them. -/
inductive Cut : (due : Bool) → List Symbol → (text : List Char) → Prop
  | nil {due : Bool} : Cut due [] []
  | blank {due : Bool} {c : Char} {ss : List Symbol} {rest : List Char}
      (hc : CharClass.whitespace.has c = true) (h : Cut due ss rest) : Cut due ss (c :: rest)
  | symbol {due : Bool} {ss : List Symbol} {rest : List Char} (s : Symbol) (hs : s.Stands due rest)
      (h : Cut s.leavesDue ss rest) : Cut due (s :: ss) (s.text ++ rest)

/-! ## Every text can be cut -/

/-- A longest literal stands by itself, without a sign unless an operand is due. -/
theorem exists_number {due : Bool} {c : Char} {rest : List Char} {f : Literal.Form}
    (hf : f.text <+: c :: rest) (hsign : CharClass.sign.has c = true → due = true) :
    ∃ (s : Symbol) (rest' : List Char), s.text ++ rest' = c :: rest ∧ s.Stands due rest' := by
  obtain ⟨g, hg⟩ := Literal.exists_longest hf
  obtain ⟨rest', htext⟩ := hg.starts
  have hends : g.Ends rest' := by
    rw [← htext] at hg
    exact hg.ends
  refine ⟨.number g, rest', htext, hends, fun hsome => hsign ?_⟩
  obtain ⟨s, hs⟩ := Option.isSome_iff_exists.1 hsome
  have hhead : s.1 = c := by simpa [g.text_eq, hs, Literal.signText] using congrArg List.head? htext
  exact hhead ▸ s.2

/-- A name goes on to the next delimiter. -/
theorem exists_name (due : Bool) {c : Char} (rest : List Char) (hdigit : CharClass.digit.has c = false)
    (hdelimiter : isDelimiter c = false) :
    ∃ (s : Symbol) (rest' : List Char), s.text ++ rest' = c :: rest ∧ s.Stands due rest' := by
  let more := rest.takeWhile fun c => !isDelimiter c
  have hmore : ∀ d ∈ more, isDelimiter d = false := by
    intro d hd
    simpa using List.all_eq_true.1 List.all_takeWhile d hd
  let n : Name := ⟨c, more, hdigit, by simpa [hdelimiter] using hmore⟩
  refine ⟨.name n, rest.dropWhile fun c => !isDelimiter c, ?_, ?_⟩
  · simp [Symbol.text, Name.text, n, more, List.takeWhile_append_dropWhile]
  · have hnext := List.head?_dropWhile_not (fun c => !isDelimiter c) rest
    change Option.all isDelimiter _ = true
    cases h : (rest.dropWhile fun c => !isDelimiter c).head? with
    | none => rfl
    | some d => simpa [h] using hnext

/-- Wherever there is no white space, some symbol stands by itself. -/
theorem exists_stands (due : Bool) {c : Char} (rest : List Char)
    (hc : CharClass.whitespace.has c = false) :
    ∃ (s : Symbol) (rest' : List Char), s.text ++ rest' = c :: rest ∧ s.Stands due rest' := by
  by_cases hdigit : CharClass.digit.has c = true
  · obtain ⟨f, hf⟩ := Literal.starts_of_digit none ⟨c, hdigit⟩ rest
    refine exists_number hf fun hsign => ?_
    rw [CharClass.has_eq_false (l := .digit) rfl hsign] at hdigit
    cases hdigit
  rw [Bool.not_eq_true] at hdigit
  by_cases hsymbol : Operator.isSymbol c = true
  · by_cases hnumber : CharClass.sign.has c = true ∧ due = true ∧ CharClass.digit.hasSome rest.head? = true
    · obtain ⟨hsign, hdue, hnext⟩ := hnumber
      obtain ⟨d, hd⟩ := CharClass.exists_of_hasSome hnext
      obtain ⟨rest, rfl⟩ := List.head?_eq_some_iff.1 hd
      obtain ⟨f, hf⟩ := Literal.starts_of_digit (some ⟨c, hsign⟩) d rest
      exact exists_number hf fun _ => hdue
    · refine ⟨.operator ⟨c, hsymbol⟩, rest, rfl, fun hsign hdue => ?_⟩
      rw [Bool.eq_false_iff]
      exact fun hnext => hnumber ⟨hsign, hdue, hnext⟩
  by_cases hseparator : CharClass.separator.has c = true
  · exact ⟨.separator ⟨c, hseparator⟩, rest, rfl, trivial⟩
  by_cases hbracket : CharClass.bracket.has c = true
  · exact ⟨.bracket ⟨c, hbracket⟩, rest, rfl, trivial⟩
  · exact exists_name due rest hdigit (by simp [isDelimiter, hsymbol, hseparator, hbracket, hc])

/-- Every text can be cut into symbols. -/
theorem exists_cut (due : Bool) (text : List Char) : ∃ ss, Cut due ss text := by
  induction hn : text.length using Nat.strong_induction_on generalizing due text with
  | _ n ih =>
    cases text with
    | nil => exact ⟨[], .nil⟩
    | cons c rest =>
      by_cases hc : CharClass.whitespace.has c = true
      · obtain ⟨ss, h⟩ := ih rest.length (by simp [← hn]) due rest rfl
        exact ⟨ss, .blank hc h⟩
      · obtain ⟨s, rest', htext, hs⟩ := exists_stands due rest (by simpa using hc)
        have hlt : rest'.length < n := by
          have := List.length_pos_iff.2 s.text_ne_nil
          rw [← hn, ← htext, List.length_append]
          omega
        obtain ⟨ss, h⟩ := ih rest'.length hlt s.leavesDue rest' rfl
        exact ⟨s :: ss, htext ▸ .symbol s hs h⟩

/-! ## Slices of the text -/

/-- The tokens spell consecutive slices of the text; all that is left between them is white space. -/
inductive Slices : List (Token V) → (text : List Char) → Prop
  | nil : Slices [] []
  | blank {c : Char} {ts : List (Token V)} {rest : List Char}
      (hc : CharClass.whitespace.has c = true) (h : Slices ts rest) : Slices ts (c :: rest)
  | token (t : Token V) {ts : List (Token V)} {rest : List Char} (h : Slices ts rest) :
      Slices (t :: ts) (t.text ++ rest)

theorem slices_of_cut {due : Bool} {ss : List Symbol} {text : List Char} (h : Cut due ss text) :
    Slices (ss.map (token (V := V))) text := by
  induction h with
  | nil => exact .nil
  | blank hc _ ih => exact .blank hc ih
  | symbol s _ _ ih =>
    rw [List.map_cons, ← s.text_token (V := V)]
    exact .token _ ih

/-- Slices without white space are all that the text has besides it. -/
theorem Slices.flatten {ts : List (Token V)} {text : List Char} (h : Slices ts text)
    (hts : ∀ t ∈ ts, ∀ c ∈ t.text, CharClass.whitespace.has c = false) :
    (ts.map Token.text).flatten = text.filter fun c => !CharClass.whitespace.has c := by
  induction h with
  | nil => rfl
  | blank hc _ ih => simpa [hc] using ih hts
  | token t _ ih =>
    have ht : t.text.filter (fun c => !CharClass.whitespace.has c) = t.text := by
      rw [List.filter_eq_self]
      intro c hc
      simp [hts t (by simp) c hc]
    rw [List.map_cons, List.flatten_cons, List.filter_append, ht, ih fun u hu => hts u (by simp [hu])]

/-- A symbol stands in the text that is cut, between what is before and after it. -/
theorem Cut.exists_around {due : Bool} {ss : List Symbol} {text : List Char} (h : Cut due ss text) :
    ∀ s ∈ ss, ∃ before after, text = before ++ s.text ++ after := by
  induction h with
  | nil => simp
  | @blank _ c _ _ _ _ ih =>
    intro s hs
    obtain ⟨before, after, htext⟩ := ih s hs
    exact ⟨c :: before, after, by rw [htext]; rfl⟩
  | @symbol _ _ rest t _ _ ih =>
    intro s hs
    rcases List.mem_cons.1 hs with rfl | hs
    · exact ⟨[], rest, rfl⟩
    · obtain ⟨before, after, htext⟩ := ih s hs
      exact ⟨t.text ++ before, after, by simp [htext]⟩

/-- In a text that is itself no longer than the limit, no literal has too many digits. -/
theorem Cut.readable [DigitLimit] {due : Bool} {ss : List Symbol} {text : List Char} (h : Cut due ss text)
    (hallowed : DigitLimit.Allows text.length) : ∀ s ∈ ss, s.Readable := by
  intro s hs
  obtain ⟨before, after, rfl⟩ := h.exists_around s hs
  cases s with
  | number f =>
    refine Literal.Form.readable_of_allows (hallowed.mono ?_)
    simp only [Symbol.text, List.length_append]
    omega
  | _ => trivial

/-! ## Characters that start no number -/

/-- The character is no digit, nor a sign before a digit where an operand is due. -/
structure StartsNoNumber (due : Bool) (c : Char) (rest : List Char) : Prop where
  digit : CharClass.digit.has c = false
  sign : CharClass.sign.has c = true → due = true → CharClass.digit.hasSome rest.head? = false

theorem startsNoNumber_of_has {k : CharClass} (hdigit : k.apart .digit = true)
    (hsign : k.apart .sign = true) {c : Char} (hc : k.has c = true) (due : Bool) (rest : List Char) :
    StartsNoNumber due c rest where
  digit := CharClass.has_eq_false hdigit hc
  sign := by simp [CharClass.has_eq_false hsign hc]

theorem startsNoNumber_of_name (n : Name) (due : Bool) (rest : List Char) :
    StartsNoNumber due n.first rest where
  digit := n.notDigit
  sign := by
    intro hsign
    have hdelimiter := n.not_isDelimiter n.first (by simp [Name.text])
    rw [CharClass.forall_has (P := fun c => isDelimiter c = true) (by decide) hsign] at hdelimiter
    cases hdelimiter

theorem other_operator {c : Char} (hc : Operator.isSymbol c = true) :
    other (V := V) (some c) = take .operator [] .betweenTokens := by
  simp [other, hc]

theorem other_separator {c : Char} (hc : CharClass.separator.has c = true) :
    other (V := V) (some c) = take .comma [] .betweenTokens := by
  have hsymbol : Operator.isSymbol c = false :=
    CharClass.forall_has (P := fun c => Operator.isSymbol c = false) (by decide) hc
  simp [other, hsymbol, hc]

theorem other_bracket {c : Char} (hc : CharClass.bracket.has c = true) :
    other (V := V) (some c) =
      take .bracket [.closing (some (CharClass.closing.has c))] .betweenTokens := by
  obtain ⟨hsymbol, hseparator⟩ := CharClass.forall_has (P := fun c =>
    Operator.isSymbol c = false ∧ CharClass.separator.has c = false) (by decide) hc
  simp [other, hsymbol, hseparator, hc]

theorem other_whitespace {c : Char} (hc : CharClass.whitespace.has c = true) :
    other (V := V) (some c) = .done (.goto .betweenTokens) := by
  obtain ⟨hsymbol, hseparator, hbracket⟩ := CharClass.forall_has (P := fun c =>
    Operator.isSymbol c = false ∧ CharClass.separator.has c = false ∧
      CharClass.bracket.has c = false) (by decide) hc
  simp [other, hsymbol, hseparator, hbracket, hc]

theorem other_name {c : Char} (hc : isDelimiter c = false) :
    other (V := V) (some c) = take .variable [] .inName := by
  simp only [isDelimiter, Bool.or_eq_false_iff] at hc
  obtain ⟨⟨⟨hsymbol, hseparator⟩, hbracket⟩, hwhitespace⟩ := hc
  simp [other, hsymbol, hseparator, hbracket, hwhitespace]

/-! ## Calls -/

def push (t : Token V) (w : Workspace V) : Workspace V :=
  { w with opened := { w.opened with entries := (none, t) :: w.opened.entries }, skip := 0 }

variable {input rest : List Char} {index : Nat} {w : Workspace V}

theorem exec_take (kind : Kind) (next : State) (c : Char) :
    (take kind [] next).exec .ordered ⟨input, index, c :: rest⟩ { w with skip := 0 } =
      .ok (.goto next, push (.spelled kind [c]) w) := rfl

theorem exec_take_bracket (next : State) (c : Char) :
    (take .bracket [.closing (some (CharClass.closing.has c))] next).exec .ordered
      ⟨input, index, c :: rest⟩ { w with skip := 0 } =
        .ok (.goto next, push (.bracket c (CharClass.closing.has c)) w) :=
  rfl

theorem expectsOperand_active {s : Symbol} {entries : List (Option String × Token V)}
    (h : w.opened.entries = (none, s.token) :: entries) :
    expectsOperand w.opened.active = s.leavesDue := by
  rw [Opened.active, h]
  exact expectsOperand_token s

variable [DigitLimit]

theorem call_betweenTokens :
    scanner.call input index rest .betweenTokens w =
      (betweenTokens rest.head?).exec .ordered ⟨input, index, rest⟩ { w with skip := 0 } := rfl

theorem call_inName :
    scanner.call input index rest .inName w =
      (inName rest.head?).exec .ordered ⟨input, index, rest⟩ { w with skip := 0 } := rfl

/-- Where no literal starts, the scan of literals is tried in vain: only the log shows it. -/
theorem exec_number_rejected (h : ∀ f : Literal.Form, ¬ f.text <+: rest) (c : Option Char) :
    ∃ log, (number c).exec .ordered ⟨input, index, rest⟩ { w with skip := 0 } =
      (other c).exec .ordered ⟨input, index, rest⟩ { w with skip := 0, log := log } := by
  obtain ⟨e, hrun, _⟩ := Literal.run_of_not_starts (V := V) h
  have hnested : (Literal.scanner (V := V)).tokenizer.run rest = _ := hrun
  refine ⟨.rejected rest e :: w.log, ?_⟩
  simp only [number, Script.exec, Workspace.delegate, hnested, bind, Except.bind, pure, Except.pure]
  rfl

theorem call_other (input : List Char) (index : Nat) {c : Char}
    (h : StartsNoNumber (expectsOperand w.opened.active) c rest) :
    ∃ log, scanner.call input index (c :: rest) .betweenTokens w =
      (other (some c)).exec .ordered ⟨input, index, c :: rest⟩ { w with skip := 0, log := log } := by
  have hdigit : ¬ CharClass.digit.hasSome (some c) = true := by simp [CharClass.hasSome, h.digit]
  rw [call_betweenTokens, List.head?_cons, betweenTokens, if_neg hdigit]
  by_cases hc : CharClass.sign.hasSome (some c) = true
  · rw [if_pos hc, Script.exec]
    by_cases hdue : expectsOperand w.opened.active = true
    · rw [if_pos hdue]
      exact exec_number_rejected (Literal.not_starts_of_sign ⟨c, hc⟩ (h.sign hc hdue)) (some c)
    · rw [if_neg hdue]
      exact ⟨w.log, rfl⟩
  · rw [if_neg hc]
    exact ⟨w.log, rfl⟩

/-- The run after a character that opens a token. -/
theorem runFrom_push (input : List Char) (index : Nat) {c : Char} {t : Token V} {next : State}
    (h : StartsNoNumber (expectsOperand w.opened.active) c rest)
    (hexec : ∀ w : Workspace V, (other (some c)).exec .ordered ⟨input, index, c :: rest⟩
      { w with skip := 0 } = .ok (.goto next, push t w)) :
    ∃ log, scanner.runFrom input (c :: rest) index 0 .betweenTokens w =
      scanner.runFrom input rest (index + 1) 0 next (push t { w with log := log }) := by
  obtain ⟨log, hcall⟩ := call_other input index h
  exact ⟨log, Scanner.runFrom_goto (hcall.trans (hexec { w with log := log }))⟩

/-! ## Symbol by symbol -/

theorem runFrom_whitespace {c : Char} (hc : CharClass.whitespace.has c = true) :
    ∃ log, scanner.runFrom input (c :: rest) index 0 .betweenTokens w =
      scanner.runFrom input rest (index + 1) 0 .betweenTokens { w with skip := 0, log := log } := by
  obtain ⟨log, hcall⟩ := call_other input index (startsNoNumber_of_has rfl rfl hc _ rest)
  have hstep : scanner.call input index (c :: rest) .betweenTokens w =
      .ok (.goto .betweenTokens, { w with skip := 0, log := log }) := by
    rw [hcall, other_whitespace hc]
    rfl
  exact ⟨log, Scanner.runFrom_goto hstep⟩

/-- Does the scan go past the symbol and add its token, and nothing else? -/
def Adds (s : Symbol) (rest : List Char) (w : Workspace V) : Prop :=
  ∀ (input : List Char) (index : Nat), ∃ w', w'.opened.entries = (none, s.token) :: w.opened.entries ∧
    scanner.runFrom input (s.text ++ rest) index 0 .betweenTokens w =
      scanner.runFrom input rest (index + s.text.length) 0 .betweenTokens w'

theorem adds_operator {c : { c : Char // Operator.isSymbol c = true }}
    (h : CharClass.sign.has c.1 = true → expectsOperand w.opened.active = true →
      CharClass.digit.hasSome rest.head? = false) : Adds (.operator c) rest w := by
  intro input index
  have hdigit : CharClass.digit.has c.1 = false :=
    forall_symbol (P := fun c => CharClass.digit.has c = false) (by decide) c.2
  obtain ⟨log, hrun⟩ := runFrom_push input index ⟨hdigit, h⟩ fun w => by
    rw [other_operator c.2, exec_take]
  exact ⟨_, rfl, hrun⟩

theorem adds_separator (c : CharClass.Member .separator) (rest : List Char) (w : Workspace V) :
    Adds (.separator c) rest w := by
  intro input index
  have hnumber : StartsNoNumber (expectsOperand w.opened.active) c.1 rest :=
    startsNoNumber_of_has rfl rfl c.2 _ rest
  obtain ⟨log, hrun⟩ := runFrom_push input index hnumber fun w => by
    rw [other_separator c.2, exec_take]
  exact ⟨_, rfl, hrun⟩

theorem adds_bracket (c : CharClass.Member .bracket) (rest : List Char) (w : Workspace V) :
    Adds (.bracket c) rest w := by
  intro input index
  have hnumber : StartsNoNumber (expectsOperand w.opened.active) c.1 rest :=
    startsNoNumber_of_has rfl rfl c.2 _ rest
  obtain ⟨log, hrun⟩ := runFrom_push input index hnumber fun w => by
    rw [other_bracket c.2, exec_take_bracket]
  exact ⟨_, rfl, hrun⟩

theorem runFrom_more : ∀ (more text : List Char) (index : Nat), (∀ c ∈ more, isDelimiter c = false) →
    scanner.runFrom input (more ++ rest) index 0 .inName (push (.spelled .variable text) w) =
      scanner.runFrom input rest (index + more.length) 0 .inName
        (push (.spelled .variable (text ++ more)) w)
  | [], text, index, _ => by simp
  | c :: more, text, index, h => by
    have hstep : scanner.call input index (c :: (more ++ rest)) .inName (push (.spelled .variable text) w) =
        .ok (.goto .inName, push (.spelled .variable (text ++ [c])) w) := by
      rw [call_inName, List.head?_cons, inName, Option.all_some, h c (by simp)]
      rfl
    have hmore := runFrom_more more (text ++ [c]) (index + 1) fun d hd => h d (by simp [hd])
    rw [List.cons_append, Scanner.runFrom_goto hstep]
    refine hmore.trans ?_
    rw [List.length_cons, List.append_assoc, List.singleton_append]
    congr 1
    omega

/-- Before a delimiter a name is complete, and the scan goes on as between tokens. -/
theorem call_inName_delimiter (h : rest.head?.all isDelimiter = true) (n : Name) :
    scanner.call input index rest .inName (push (.spelled .variable n.text) w) =
      scanner.call input index rest .betweenTokens (push (token (.name n)) w) := by
  rw [call_inName, call_betweenTokens, inName, if_pos h]
  change Script.exec .ordered ⟨input, index, rest⟩ (if n.function?.isSome = true then
    .update [.kind (some .function)] (betweenTokens rest.head?) else betweenTokens rest.head?)
    (push (.spelled .variable n.text) w) = _
  split
  · rename_i hn
    have hkind : token (V := V) (.name n) = .spelled .function n.text := by
      simp [token, hn]
    rw [hkind]
    rfl
  · rename_i hn
    have hkind : token (V := V) (.name n) = .spelled .variable n.text := by
      simp [token, hn]
    rw [hkind]
    rfl

theorem adds_name (h : rest.head?.all isDelimiter = true) (n : Name) (w : Workspace V) :
    Adds (.name n) rest w := by
  intro input index
  have hfirst : isDelimiter n.first = false := n.not_isDelimiter n.first (by simp [Name.text])
  have hmore : ∀ c ∈ n.more, isDelimiter c = false := fun c hc =>
    n.not_isDelimiter c (List.mem_cons_of_mem _ hc)
  have hlength : index + 1 + n.more.length = index + n.text.length := by
    rw [Name.text, List.length_cons]
    omega
  have hnumber : StartsNoNumber (expectsOperand w.opened.active) n.first (n.more ++ rest) :=
    startsNoNumber_of_name n _ _
  obtain ⟨log, hopen⟩ := runFrom_push input index hnumber fun w => by
    rw [other_name hfirst, exec_take]
  refine ⟨push (token (.name n)) { w with log := log }, rfl, hopen.trans ?_⟩
  change _ = scanner.runFrom input rest (index + n.text.length) 0 _ _
  rw [← hlength]
  refine (runFrom_more n.more [n.first] (index + 1) hmore).trans ?_
  exact Scanner.runFrom_congr (call_inName_delimiter h n)

/-! ## Literals -/

/-- The workspace after a nested scan of a literal. -/
def nested (text : List Char) (f : Literal.Form) (w : Workspace V) : Workspace V :=
  { push (token (.number f)) w with
    skip := f.text.length - 1
    log := .tokenized text f.text.length :: w.log }

theorem exec_number {f : Literal.Form} (h : f.Ends rest) (hf : f.Scannable) (c : Option Char) :
    (number c).exec .ordered ⟨input, index, f.text ++ rest⟩ { w with skip := 0 } =
      .ok (.goto .betweenTokens, nested (f.text ++ rest) f w) := by
  have hlength : f.text.length ≠ 0 := by simp [f.text_eq]
  have hrun : (Literal.scanner (V := V)).tokenizer.run (f.text ++ rest) = _ :=
    (Literal.run_text h).trans (if_pos hf)
  have htake : (f.text ++ rest).take f.text.length = f.text := List.take_left
  have hdelegate : { w with skip := 0 }.delegate .ordered (f.text ++ rest) Literal.scanner.tokenizer
      (some .number) none [] = .ok (true, nested (f.text ++ rest) f w) := by
    simp only [Workspace.delegate, hrun, bind, Except.bind, pure, Except.pure, if_neg hlength, htake]
    rfl
  simp only [number, Script.exec, hdelegate, bind, Except.bind]
  rfl

/-- An exponent that is too long ends the nested scan, and with it this one. -/
theorem exec_number_overlong {f : Literal.Form} (h : f.Ends rest) (hf : ¬ f.Scannable) (c : Option Char) :
    (number c).exec .ordered ⟨input, index, f.text ++ rest⟩ { w with skip := 0 } =
      .error (.conversion (.tooLongToRead DigitLimit.most f.exponentWidth)) := by
  have hrun : (Literal.scanner (V := V)).tokenizer.run (f.text ++ rest) = _ :=
    (Literal.run_text h).trans (if_neg hf)
  have hdelegate : { w with skip := 0 }.delegate .ordered (f.text ++ rest) Literal.scanner.tokenizer
      (some .number) none [] = .error (.conversion (.tooLongToRead DigitLimit.most f.exponentWidth)) := by
    simp only [Workspace.delegate, hrun]
    rfl
  simp only [number, Script.exec, hdelegate]
  rfl

/-- The scan of literals is tried on a digit, and on a sign where an operand is due. -/
theorem call_number {f : Literal.Form} (hdue : f.sign.isSome = true → expectsOperand w.opened.active = true) :
    scanner.call input index (f.text ++ rest) .betweenTokens w =
      (number (f.text ++ rest).head?).exec .ordered ⟨input, index, f.text ++ rest⟩ { w with skip := 0 } := by
  rw [call_betweenTokens, betweenTokens]
  cases hs : f.sign with
  | none =>
    have hdigit : CharClass.digit.hasSome (f.text ++ rest).head? = true := by
      simp [f.text_eq, hs, Literal.signText, CharClass.hasSome, f.integral.first.2]
    rw [if_pos hdigit]
  | some c =>
    have hhead : (f.text ++ rest).head? = some c.1 := by simp [f.text_eq, hs, Literal.signText]
    have hdigit : ¬ CharClass.digit.hasSome (some c.1) = true := by
      simp [CharClass.hasSome, CharClass.has_eq_false (l := .digit) rfl c.2]
    have hsign : CharClass.sign.hasSome (some c.1) = true := c.2
    rw [hhead, if_neg hdigit, if_pos hsign, Script.exec, if_pos (hdue (by simp [hs]))]

theorem adds_number {f : Literal.Form} (h : f.Ends rest) (hf : f.Scannable)
    (hdue : f.sign.isSome = true → expectsOperand w.opened.active = true) :
    Adds (.number f) rest w := by
  intro input index
  refine ⟨nested (f.text ++ rest) f w, rfl, ?_⟩
  change scanner.runFrom input (f.text ++ rest) index 0 _ _ =
    scanner.runFrom input rest (index + f.text.length) 0 _ _
  have hstep : scanner.call input index (f.text ++ rest) .betweenTokens w = _ :=
    (call_number hdue).trans (exec_number h hf _)
  have hskip : (nested (f.text ++ rest) f w).skip = f.text.length - 1 := rfl
  obtain ⟨c, tail, htext⟩ := List.exists_cons_of_ne_nil f.text_ne_nil
  generalize nested (f.text ++ rest) f w = w' at hstep hskip ⊢
  rw [htext] at hstep hskip ⊢
  rw [List.cons_append] at hstep ⊢
  rw [Scanner.runFrom_goto hstep, hskip, List.length_cons, Nat.add_sub_cancel, Scanner.runFrom_skip tail]
  congr 1
  omega

theorem runFrom_overlong {f : Literal.Form} (h : f.Ends rest) (hf : ¬ f.Scannable)
    (hdue : f.sign.isSome = true → expectsOperand w.opened.active = true) :
    scanner.runFrom input (f.text ++ rest) index 0 .betweenTokens w =
      .error (.conversion (.tooLongToRead DigitLimit.most f.exponentWidth)) :=
  Scanner.runFrom_error ((call_number hdue).trans (exec_number_overlong h hf _))

/-! ## Whole texts -/

/-- A symbol that stands by itself adds its token, unless its exponent is too long. -/
theorem adds_symbol {s : Symbol} (hs : s.Stands (expectsOperand w.opened.active) rest) (hscan : s.Scannable) :
    Adds s rest w := by
  cases s with
  | number f => exact adds_number hs.1 hscan hs.2
  | name n => exact adds_name hs n w
  | operator c => exact adds_operator hs
  | separator c => exact adds_separator c rest w
  | bracket c => exact adds_bracket c rest w

/-- At the end of the text, the tokens so far are the result. -/
theorem runFrom_end (input : List Char) (index : Nat) (w : Workspace V) :
    ∃ o, scanner.runFrom input [] index 0 .betweenTokens w = .ok o ∧
      o.result = .ok ⟨.ordered (w.opened.entries.map (·.2)).reverse, index⟩ :=
  ⟨_, rfl, rfl⟩

/-- A scan goes on symbol by symbol to the end of the text. -/
theorem runFrom_cut {due : Bool} {ss : List Symbol} {text : List Char} (h : Cut due ss text)
    (hscan : ∀ s ∈ ss, s.Scannable) (input : List Char) :
    ∀ (index : Nat) (w : Workspace V), expectsOperand w.opened.active = due →
      ∃ o, scanner.runFrom input text index 0 .betweenTokens w = .ok o ∧
        o.result = .ok ⟨.ordered ((w.opened.entries.map (·.2)).reverse ++ ss.map token),
          index + text.length⟩ := by
  induction h with
  | nil =>
    intro index w _
    obtain ⟨o, hrun, hresult⟩ := runFrom_end input index w
    exact ⟨o, hrun, by simp [hresult]⟩
  | blank hc _ ih =>
    intro index w hdue
    obtain ⟨log, hblank⟩ := runFrom_whitespace hc
    obtain ⟨o, hrun, hresult⟩ := ih hscan (index + 1) { w with skip := 0, log := log } hdue
    refine ⟨o, hblank.trans hrun, ?_⟩
    rw [hresult, List.length_cons, Nat.add_assoc, Nat.add_comm 1]
  | symbol s hs _ ih =>
    intro index w hdue
    rw [← hdue] at hs
    rw [List.forall_mem_cons] at hscan
    obtain ⟨w', hentries, hsymbol⟩ := adds_symbol hs hscan.1 input index
    obtain ⟨o, hrun, hresult⟩ := ih hscan.2 (index + s.text.length) w' (expectsOperand_active hentries)
    refine ⟨o, hsymbol.trans hrun, ?_⟩
    rw [hresult, hentries]
    simp [Nat.add_assoc]

/-- A scan goes on up to the first literal whose exponent is too long, and does not get past it. -/
theorem runFrom_cut_overlong {due : Bool} {ss : List Symbol} {text : List Char} (h : Cut due ss text)
    (hscan : ¬ ∀ s ∈ ss, s.Scannable) (input : List Char) :
    ∀ (index : Nat) (w : Workspace V), expectsOperand w.opened.active = due →
      ∃ f, Symbol.number f ∈ ss ∧ ¬ f.Scannable ∧ scanner.runFrom input text index 0 .betweenTokens w =
        .error (.conversion (.tooLongToRead DigitLimit.most f.exponentWidth)) := by
  induction h with
  | nil => exact absurd (by simp) hscan
  | blank hc _ ih =>
    intro index w hdue
    obtain ⟨log, hblank⟩ := runFrom_whitespace hc
    obtain ⟨f, hmem, hf, hrun⟩ := ih hscan (index + 1) { w with skip := 0, log := log } hdue
    exact ⟨f, hmem, hf, hblank.trans hrun⟩
  | @symbol _ ss _ s hs _ ih =>
    intro index w hdue
    rw [← hdue] at hs
    by_cases hfirst : s.Scannable
    · have hrest : ¬ ∀ s ∈ ss, s.Scannable := fun hrest =>
        hscan (List.forall_mem_cons.2 ⟨hfirst, hrest⟩)
      obtain ⟨w', hentries, hsymbol⟩ := adds_symbol hs hfirst input index
      obtain ⟨f, hmem, hf, hrun⟩ := ih hrest (index + s.text.length) w' (expectsOperand_active hentries)
      exact ⟨f, List.mem_cons_of_mem s hmem, hf, hsymbol.trans hrun⟩
    · cases s with
      | number f => exact ⟨f, List.mem_cons_self, hfirst, runFrom_overlong hs.1 hfirst hs.2⟩
      | _ => exact absurd trivial hfirst

/-- The tokens of a text that is cut into symbols are those of the symbols. -/
theorem run_cut {ss : List Symbol} {text : List Char} (h : Cut true ss text) (hscan : ∀ s ∈ ss, s.Scannable) :
    ∃ o, (scanner (V := V)).run text = .ok o ∧
      o.result = .ok ⟨.ordered (ss.map token), text.length⟩ := by
  obtain ⟨o, hrun, hresult⟩ := runFrom_cut h hscan text 0 ({} : Workspace V) rfl
  refine ⟨o, hrun, ?_⟩
  simpa using hresult

theorem lex_cut {ss : List Symbol} {text : List Char} (h : Cut true ss text) (hscan : ∀ s ∈ ss, s.Scannable) :
    lex text = .ok (ss.map (token (V := V))) := by
  obtain ⟨o, hrun, hresult⟩ := run_cut (V := V) h hscan
  simp [lex, hrun, hresult, itemsOf]

theorem lex_cut_overlong {ss : List Symbol} {text : List Char} (h : Cut true ss text)
    (hscan : ¬ ∀ s ∈ ss, s.Scannable) :
    ∃ f, Symbol.number f ∈ ss ∧ ¬ f.Scannable ∧
      lex (V := V) text = .error (.misuse (.conversion (.tooLongToRead DigitLimit.most f.exponentWidth))) := by
  obtain ⟨f, hmem, hf, hrun⟩ := runFrom_cut_overlong h hscan text 0 ({} : Workspace V) rfl
  have hrun : (scanner (V := V)).run text = _ := hrun
  exact ⟨f, hmem, hf, by simp only [lex, hrun]⟩

/-- The tokens of a text that is lexed are those of the symbols that it is cut into. -/
theorem exists_cut_of_lex {text : List Char} {ts : List (Token V)} (h : lex text = .ok ts) :
    ∃ ss, Cut true ss text ∧ (∀ s ∈ ss, s.Scannable) ∧ ts = ss.map token := by
  obtain ⟨ss, hcut⟩ := exists_cut true text
  by_cases hscan : ∀ s ∈ ss, s.Scannable
  · rw [lex_cut hcut hscan] at h
    exact ⟨ss, hcut, hscan, (Except.ok.inj h).symm⟩
  · obtain ⟨f, -, -, hfail⟩ := lex_cut_overlong (V := V) hcut hscan
    rw [hfail] at h
    cases h

/-! ## Lossless lexing -/

/-- **Lossless lexing.** Any text is lexed, to its end. The tokens are consecutive slices of the text,
none of them empty and none with white space in it, and together they spell the text less its white
space. Nothing but a number whose exponent has too many digits can keep a text from being lexed. -/
theorem lex_lossless (text : List Char) :
    (∃ ts : List (Token V), lex text = .ok ts ∧
      (∃ o, scanner.run text = .ok o ∧ o.result = .ok ⟨.ordered ts, text.length⟩) ∧
      Slices ts text ∧
      (∀ t ∈ ts, t.text ≠ [] ∧ ∀ c ∈ t.text, CharClass.whitespace.has c = false) ∧
      (ts.map Token.text).flatten = text.filter fun c => !CharClass.whitespace.has c) ∨
    ∃ (f : Literal.Form) (before after : List Char), text = before ++ f.text ++ after ∧ ¬ f.Scannable ∧
      lex (V := V) text = .error (.misuse (.conversion (.tooLongToRead DigitLimit.most f.exponentWidth))) := by
  obtain ⟨ss, h⟩ := exists_cut true text
  by_cases hscan : ∀ s ∈ ss, s.Scannable
  · have hslices : Slices (ss.map (token (V := V))) text := slices_of_cut h
    have htexts : ∀ t ∈ ss.map (token (V := V)),
        t.text ≠ [] ∧ ∀ c ∈ t.text, CharClass.whitespace.has c = false := by
      intro t ht
      obtain ⟨s, _, rfl⟩ := List.mem_map.1 ht
      rw [s.text_token]
      exact ⟨s.text_ne_nil, s.not_whitespace⟩
    exact .inl ⟨ss.map token, lex_cut h hscan, run_cut h hscan, hslices, htexts,
      hslices.flatten fun t ht => (htexts t ht).2⟩
  · obtain ⟨f, hmem, hf, hfail⟩ := lex_cut_overlong (V := V) h hscan
    obtain ⟨before, after, htext⟩ := h.exists_around _ hmem
    exact .inr ⟨f, before, after, htext, hf, hfail⟩

end Reckoner.Lexer
