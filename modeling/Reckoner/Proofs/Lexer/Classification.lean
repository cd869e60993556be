import Reckoner.Proofs.Lexer.Cut

/-!
# What tokens are, and where

The kind of a token tells what it spells and what may follow it, and the token before it tells whether
a sign is part of a number (`Proper`). This is read off the rules by which a text is cut: each symbol
stands by itself where it is (`Cut.split`), and its token keeps what makes it do so
(`proper_of_stands`). Main theorem `lex_classifies`.
-/
namespace Reckoner.Lexer

open Lexer.Symbol

variable {V : Type}

/-! ## Places -/

/-- The token stands in the text between `left` and `right`, which hold the tokens before it and those
after it, and white space. -/
structure Located (before : List (Token V)) (t : Token V) (after : List (Token V))
    (left right text : List Char) : Prop where
  text_eq : text = left ++ (t.text ++ right)
  before : Slices before left
  after : Slices after right

/-- Is an operand due after the symbols, `due` telling whether one is before them? -/
def dueAfter (due : Bool) (ss : List Symbol) : Bool := (ss.getLast?.map leavesDue).getD due

theorem dueAfter_cons (due : Bool) (s : Symbol) (ss : List Symbol) :
    dueAfter due (s :: ss) = dueAfter s.leavesDue ss := by
  rw [dueAfter, dueAfter, List.getLast?_cons]
  cases ss.getLast? <;> rfl

/-- Each symbol of a text that is cut stands by itself in its place. -/
theorem Cut.split {due : Bool} {ss : List Symbol} {text : List Char} (h : Cut due ss text) :
    ∀ {before after : List Symbol} {s : Symbol}, ss = before ++ s :: after →
      ∃ left right, Located (V := V) (before.map token) s.token (after.map token) left right text ∧
        s.Stands (dueAfter due before) right := by
  induction h with
  | nil => simp
  | @blank due c ss rest hc _ ih =>
    intro before after s hss
    obtain ⟨left, right, hplace, hs⟩ := ih hss
    exact ⟨c :: left, right, ⟨by rw [hplace.text_eq, List.cons_append], .blank hc hplace.before,
      hplace.after⟩, hs⟩
  | @symbol due ss rest first hfirst hrest ih =>
    intro before after s hss
    cases before with
    | nil =>
      obtain ⟨rfl, rfl⟩ := List.cons.inj hss
      exact ⟨[], rest, ⟨by rw [first.text_token, List.nil_append], .nil, slices_of_cut hrest⟩, hfirst⟩
    | cons b before =>
      obtain ⟨rfl, hlater⟩ := List.cons.inj hss
      obtain ⟨left, right, hplace, hs⟩ := ih hlater
      refine ⟨first.text ++ left, right, ⟨by rw [hplace.text_eq, List.append_assoc], ?_, hplace.after⟩, ?_⟩
      · rw [← first.text_token (V := V)]
        exact .token first.token hplace.before
      · rw [dueAfter_cons]
        exact hs

/-- Every token of a text is that of a symbol which stands by itself in its place. -/
theorem exists_symbol [DigitLimit] {text : List Char} {ts before after : List (Token V)} {t : Token V}
    (h : lex text = .ok ts) (hts : ts = before ++ t :: after) :
    ∃ (ss : List Symbol) (s : Symbol) (left right : List Char), before = ss.map token ∧ t = s.token ∧
      Located before t after left right text ∧ s.Stands (dueAfter true ss) right ∧ s.Scannable := by
  obtain ⟨ss, hcut, hscan, hss⟩ := exists_cut_of_lex h
  obtain ⟨ss₁, ss₂, rfl, rfl, hafter⟩ := List.map_eq_append_iff.1 (hss.symm.trans hts)
  obtain ⟨s, ss₂, rfl, rfl, rfl⟩ := List.map_eq_cons_iff.1 hafter
  obtain ⟨left, right, hplace, hs⟩ := hcut.split (V := V) rfl
  exact ⟨ss₁, s, left, right, rfl, rfl, hplace, hs, hscan s (by simp)⟩

/-! ## Kinds -/

/-- Is an operand due after the previous token? One is at the start, too, where there is none. -/
def OperandDue : Option (Token V) → Prop
  | none => True
  | some t => t.kind = some .operator ∨ t.kind = some .comma ∨ t.kind = some .function ∨
      t.kind = some .bracket ∧ t.closing = some false

theorem operandDue_token (s : Symbol) : OperandDue (some (s.token (V := V))) ↔ s.leavesDue = true := by
  cases s with
  | name n => cases h : n.function? <;> simp [OperandDue, token, Token.spelled, leavesDue, h]
  | _ => simp [OperandDue, token, Token.spelled, Token.bracket, leavesDue]

theorem operandDue_getLast? (ss : List Symbol) :
    OperandDue (ss.map (token (V := V))).getLast? ↔ dueAfter true ss = true := by
  rw [List.getLast?_map, dueAfter]
  cases ss.getLast? with
  | none => simp [OperandDue]
  | some s => exact operandDue_token s

/-- Does the token start with a sign? -/
def Signed (t : Token V) : Prop := CharClass.sign.hasSome t.text.head? = true

/-- Is the text one name, up to a delimiter or the end? -/
structure NameBefore (next text : List Char) : Prop where
  nonempty : text ≠ []
  not_delimiter : ∀ c ∈ text, isDelimiter c = false
  not_digit : CharClass.digit.hasSome text.head? = false
  ends : next.head?.all isDelimiter = true

/-- What has to hold of a token of each kind, after the previous token and before the rest of the
text. -/
def Proper (previous : Option (Token V)) (t : Token V) (next : List Char) : Prop :=
  match t.kind with
  | some .number => (∃ f : Literal.Form, t.text = f.text ∧ t.children = some f.record) ∧
      t.closing = none ∧ (Signed t → OperandDue previous)
  | some .operator => (∃ c, t.text = [c] ∧ Operator.isSymbol c = true) ∧ t.closing = none ∧
      (Signed t → OperandDue previous → CharClass.digit.hasSome next.head? = false)
  | some .comma => (∃ c, t.text = [c] ∧ CharClass.separator.has c = true) ∧ t.closing = none
  | some .bracket => ∃ c, t.text = [c] ∧ CharClass.bracket.has c = true ∧
      t.closing = some (CharClass.closing.has c)
  | some .variable => NameBefore next t.text ∧ t.closing = none ∧ function? t.text = none
  | some .function => NameBefore next t.text ∧ t.closing = none ∧ (function? t.text).isSome = true
  | _ => False

theorem nameBefore (n : Name) {next : List Char} (h : next.head?.all isDelimiter = true) :
    NameBefore next n.text where
  nonempty := List.cons_ne_nil _ _
  not_delimiter := n.not_isDelimiter
  not_digit := n.notDigit
  ends := h

/-- A literal starts with a sign only if it has one. -/
theorem sign_of_head? {f : Literal.Form} (h : CharClass.sign.hasSome f.text.head? = true) :
    f.sign.isSome = true := by
  cases hf : f.sign with
  | some s => rfl
  | none =>
    have hhead : f.text.head? = some f.integral.first.1 := by simp [f.text_eq, hf, Literal.signText]
    rw [hhead, CharClass.hasSome, Option.any_some, CharClass.has_eq_false rfl f.integral.first.2] at h
    cases h

/-- The token of a symbol that stands by itself is what its kind asks for. -/
theorem proper_of_stands {s : Symbol} {due : Bool} {previous : Option (Token V)} {next : List Char}
    (hs : s.Stands due next) (hdue : OperandDue previous ↔ due = true) :
    Proper previous (s.token (V := V)) next := by
  cases s with
  | number f => exact ⟨⟨f, rfl, rfl⟩, rfl, fun hsigned => hdue.2 (hs.2 (sign_of_head? hsigned))⟩
  | name n =>
    cases hn : n.function? with
    | none =>
      have htoken : Symbol.token (V := V) (.name n) = .spelled .variable n.text := by simp [token, hn]
      rw [htoken]
      exact ⟨nameBefore n hs, rfl, hn⟩
    | some op =>
      have htoken : Symbol.token (V := V) (.name n) = .spelled .function n.text := by simp [token, hn]
      rw [htoken]
      exact ⟨nameBefore n hs, rfl, Option.isSome_iff_exists.2 ⟨op, hn⟩⟩
  | operator c => exact ⟨⟨c.1, rfl, c.2⟩, rfl, fun hsigned hdue' => hs hsigned (hdue.1 hdue')⟩
  | separator c => exact ⟨⟨c.1, rfl, c.2⟩, rfl⟩
  | bracket c => exact ⟨c.1, rfl, c.2, rfl⟩

/-! ## Signs -/

/-- A sign in front of a token makes it a number, if an operand is due and a digit follows the sign, and
an operator otherwise. -/
theorem Proper.sign {previous : Option (Token V)} {t : Token V} {next : List Char}
    (h : Proper previous t next) (hsigned : Signed t) :
    (t.kind = some .number ∨ t.kind = some .operator) ∧
      (t.kind = some .number ↔
        OperandDue previous ∧ CharClass.digit.hasSome (t.text ++ next)[1]? = true) := by
  have single {k : CharClass} (hk : CharClass.sign.apart k = true) {c : Char} (hc : t.text = [c]) :
      k.has c = false := by
    rw [Signed, hc] at hsigned
    exact CharClass.has_eq_false hk hsigned
  have name (hname : NameBefore next t.text) : False := by
    obtain ⟨c, more, htext⟩ := List.exists_cons_of_ne_nil hname.nonempty
    have hdelimiter := hname.not_delimiter c (by simp [htext])
    rw [Signed, htext] at hsigned
    rw [CharClass.forall_has (P := fun c => isDelimiter c = true) (by decide) hsigned] at hdelimiter
    cases hdelimiter
  unfold Proper at h
  split at h
  · rename_i hkind
    obtain ⟨⟨f, hf, -⟩, -, hdue⟩ := h
    have hhead : CharClass.sign.hasSome f.text.head? = true := by
      rw [← hf]
      exact hsigned
    obtain ⟨s, hs⟩ := Option.isSome_iff_exists.1 (sign_of_head? hhead)
    have hdigit : (t.text ++ next)[1]? = some f.integral.first.1 := by
      simp [hf, f.text_eq, hs, Literal.signText]
    have hsecond : CharClass.digit.hasSome (t.text ++ next)[1]? = true := hdigit ▸ f.integral.first.2
    exact ⟨.inl hkind, fun _ => ⟨hdue hsigned, hsecond⟩, fun _ => hkind⟩
  · rename_i hkind
    obtain ⟨⟨c, hc, -⟩, -, hnext⟩ := h
    have hsecond : (t.text ++ next)[1]? = next.head? := by
      rw [hc, List.singleton_append, List.getElem?_cons_succ, List.head?_eq_getElem?]
    refine ⟨.inr hkind, fun hnumber => ?_, fun hdigit => ?_⟩
    · rw [hkind] at hnumber
      cases hnumber
    · rw [hsecond, hnext hsigned hdigit.1] at hdigit
      cases hdigit.2
  · obtain ⟨⟨c, hc, hseparator⟩, -⟩ := h
    rw [single rfl hc] at hseparator
    cases hseparator
  · obtain ⟨c, hc, hbracket, -⟩ := h
    rw [single rfl hc] at hbracket
    cases hbracket
  · exact (name h.1).elim
  · exact (name h.1).elim
  · exact h.elim

/-- **Classification.** Where a text is lexed, its tokens are slices of it, and each is what its kind asks for,
in its place: operators, separators and brackets are single characters of theirs, brackets know whether
they close, numbers are literals and hold their parts, and names go up to a delimiter and are functions
if the table has them. A sign is part of a number just where an operand is due and a digit follows. -/
theorem lex_classifies [DigitLimit] {text : List Char} {ts : List (Token V)} (h : lex text = .ok ts) :
    Slices ts text ∧
      ∀ (before : List (Token V)) (t : Token V) (after : List (Token V)), ts = before ++ t :: after →
        ∃ left right, Located before t after left right text ∧ Proper before.getLast? t right ∧
          (Signed t → (t.kind = some .number ∨ t.kind = some .operator) ∧
            (t.kind = some .number ↔ OperandDue before.getLast? ∧
              CharClass.digit.hasSome (t.text ++ right)[1]? = true)) := by
  refine ⟨?_, fun before t after hts => ?_⟩
  · obtain ⟨ss, hcut, -, rfl⟩ := exists_cut_of_lex h
    exact slices_of_cut hcut
  · obtain ⟨ss, s, left, right, rfl, rfl, hplace, hs, -⟩ := exists_symbol h hts
    have hproper : Proper (ss.map token).getLast? (s.token (V := V)) right :=
      proper_of_stands hs (operandDue_getLast? ss)
    exact ⟨left, right, hplace, hproper, hproper.sign⟩

/-- In `2-log -1` the first sign is an operator, and the second, which follows a function, part of a number. -/
theorem lex_classifies_signs :
    let _ : DigitLimit := .standard
    let text := ['2', '-', 'l', 'o', 'g', ' ', '-', '1']
    ∃ (before : List (Token Unit)) (t : Token Unit), lex text = .ok (before ++ [t]) ∧
      Slices (before ++ [t]) text ∧ before.map Token.text = [['2'], ['-'], ['l', 'o', 'g']] ∧
      t.text = ['-', '1'] ∧ t.kind = some .number ∧ OperandDue before.getLast? := by
  intro limit text
  let number (s : Option (CharClass.Member .sign)) (c : Char) (h : CharClass.digit.has c = true) : Token Unit :=
    (Symbol.number ⟨s, ⟨⟨c, h⟩, []⟩, none, none⟩).token
  let before := [number none '2' rfl, .spelled .operator ['-'], .spelled .function ['l', 'o', 'g']]
  have hlex : lex text = .ok (before ++ [number (some ⟨'-', rfl⟩) '1' rfl]) := by rfl
  obtain ⟨hslices, hplaces⟩ := lex_classifies hlex
  obtain ⟨left, right, -, -, hsign⟩ := hplaces before _ [] rfl
  exact ⟨_, _, hlex, hslices, rfl, rfl, rfl, ((hsign rfl).2.1 rfl).1⟩

end Reckoner.Lexer
