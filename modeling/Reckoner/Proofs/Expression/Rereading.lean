import Reckoner.Proofs.Evaluation.Stack
import Reckoner.Proofs.Expression.Reading
import Reckoner.Proofs.Lexer.Classification
import Reckoner.Proofs.Postorder.Conservation

/-!
# Reading numbers again

A number token is cut out of an expression with the rest of the text in view, and read from its own
text where an expression is made of tokens. Both ways agree: a scan looks past a literal only for what
prolongs it, so that a literal which nothing prolongs in its place is scanned alike there and by itself
(`exists_scans`). Where the runtime refuses a literal for its digits, it does so both ways. Main theorem
`rereading_agrees`.
-/
namespace Reckoner

variable {V : Type}

/-! ## Margins -/

theorem dropWhile_append {drop : Char → Bool} {front t : List Char}
    (hfront : ∀ c ∈ front, drop c = true) (ht : ∀ c, t.head? = some c → drop c = false) :
    (front ++ t).dropWhile drop = t := by
  rw [List.dropWhile_append_of_pos hfront]
  cases t with
  | nil => rfl
  | cons c t => simp [ht c rfl]

/-- What is dropped at the ends is just what stands around a text that holds nothing of it. -/
theorem trim_append {drop : Char → Bool} {front t back : List Char}
    (hfront : ∀ c ∈ front, drop c = true) (ht : ∀ c ∈ t, drop c = false) (hne : t ≠ [])
    (hback : ∀ c ∈ back, drop c = true) : trim drop (front ++ (t ++ back)) = t := by
  have hfirst : (front ++ (t ++ back)).dropWhile drop = t ++ back := by
    refine dropWhile_append hfront fun c hc => ht c (List.mem_of_head? ?_)
    rwa [List.head?_append_of_ne_nil t hne] at hc
  have hlast : (back.reverse ++ t.reverse).dropWhile drop = t.reverse := by
    refine dropWhile_append (by simpa using hback) fun c hc => ht c ?_
    exact List.mem_reverse.1 (List.mem_of_head? hc)
  rw [trim, hfirst, List.reverse_append, hlast, List.reverse_reverse]

/-- White space around a literal does not matter. -/
theorem Literal.read_spaced [DigitLimit] (f : Form) {front back : List Char}
    (hfront : ∀ c ∈ front, CharClass.whitespace.has c = true)
    (hback : ∀ c ∈ back, CharClass.whitespace.has c = true) :
    read (front ++ (f.text ++ back)) = read f.text := by
  have margin {text : List Char} (h : ∀ c ∈ text, CharClass.whitespace.has c = true) :
      ∀ c ∈ text, isMargin c = true := fun c hc =>
    CharClass.forall_has (P := fun c => isMargin c = true) (by decide) (h c hc)
  have hstrip : strip (front ++ (f.text ++ back)) = strip f.text := by
    rw [strip, trim_append (margin hfront) f.not_isMargin f.text_ne_nil (margin hback), strip,
      trim_eq_self f.not_isMargin]
  rw [read, read, hstrip]

/-! ## Numbers in their place -/

/-- A text that goes on after `literal` with `rest` is scanned as far as `literal` goes, and these parts
are stored. -/
def Literal.Scans [DigitLimit] (literal rest : List Char) (parts : Record (Token V)) : Prop :=
  scanner.run (literal ++ rest) =
    .ok ⟨[.tokenized (literal ++ rest) literal.length], .ok ⟨parts, literal.length⟩⟩

/-- The token of a number is scanned alike in its place and by itself. -/
theorem Lexer.exists_scans [DigitLimit] {before after ts : List (Token V)} {t : Token V} {text : List Char}
    (h : lex text = .ok ts) (hts : ts = before ++ t :: after) (hnumber : t.kind = some .number) :
    ∃ left right parts, Located before t after left right text ∧ t.children = some parts ∧
      Literal.Scans t.text right parts ∧ Literal.Scans t.text [] parts := by
  obtain ⟨ss, s, left, right, -, rfl, hplace, hs, hscan⟩ := exists_symbol h hts
  cases s with
  | number f =>
    exact ⟨left, right, f.record, hplace, rfl, (Literal.run_text hs.1).trans (if_pos hscan),
      (Literal.run_text f.ends_nil).trans (if_pos hscan)⟩
  | name n => cases hn : n.function? <;> simp [Symbol.token, Token.spelled, hn] at hnumber
  | _ => simp [Symbol.token, Token.spelled, Token.bracket] at hnumber

/-! ## Bare tokens -/

/-- The token with its kind and its text, and nothing else. -/
def Token.bare (t : Token V) : Token V := { kind := t.kind, lexeme := t.lexeme }

namespace Expression

open Lexer OfDecimal

section Reread

variable [OfDecimal V] [DigitLimit]

/-- The bare token of a symbol is read as what it was, unless it steers. -/
theorem readToken_bare {s : Symbol} (hread : s.Readable) (h : (s.valued (V := V)).steers = false) :
    readToken (s.valued (V := V)).bare = .ok s.valued := by
  cases s with
  | number f =>
    simp only [readToken, Symbol.valued, Token.bare, Token.spelled, Token.text, Lexeme.chars?,
      Option.getD_some, Literal.read_text, if_pos (show f.Readable from hread), Except.mapError, bind,
      Except.bind, pure, Except.pure]
  | name n =>
    cases hn : n.function? <;>
      simp [readToken, Symbol.valued, Symbol.token, Token.bare, Token.spelled, hn]
  | operator c => rfl
  | separator c => cases h
  | bracket c => cases h

theorem readTokens_bare : ∀ {ts : List (Token V)},
    (∀ t ∈ ts, readToken t.bare = .ok t) → readTokens (ts.map Token.bare) = .ok ts
  | [], _ => rfl
  | t :: ts, h => by
    have hrest : readTokens (ts.map Token.bare) = .ok ts :=
      readTokens_bare fun u hu => h u (List.mem_cons_of_mem t hu)
    simp only [List.map_cons, readTokens, h t (by simp), hrest, bind, Except.bind, pure, Except.pure]

/-- The tokens of an expression that was read from a text are read again from bare copies. -/
theorem ofPostorder_bare {text : List Char} {x : Expression V} (h : parse text = .ok x) :
    ofPostorder (x.tokens.map Token.bare) = .ok ⟨none, x.tokens⟩ := by
  obtain ⟨ss, hcut⟩ := exists_cut true text
  have hreadable := readable_of_parse hcut h
  rw [parse_cut hcut hreadable] at h
  cases hordered : Postorder.ofInfix (ss.map (Symbol.valued (V := V))) with
  | error e => simp [hordered, Except.mapError, Except.map] at h
  | ok vs =>
    rw [hordered] at h
    cases h
    have hread : ∀ v ∈ vs, readToken v.bare = .ok v := fun v hv => by
      obtain ⟨hmem, hsteers⟩ := List.mem_filter.1 ((Postorder.perm_of_ofInfix hordered).mem_iff.1 hv)
      obtain ⟨s, hs, rfl⟩ := List.mem_map.1 hmem
      exact readToken_bare (hreadable s hs) (by simpa using hsteers)
    simp only [ofPostorder, readTokens_bare hread, bind, Except.bind, pure, Except.pure]

/-! ## Both ways -/

/-- **Rereading.** Numbers are the same whichever way their tokens are made. (1) The tokens of an
expression that was read from a text are got again from copies that keep only kind and text. (2) A
number token of a text that is lexed is scanned to its end, with the same parts, in its place and by itself.
(3) An expression that is a literal, with white space around it, has the value that is read from it; with too
many digits the one is no expression, and the other not read, for the same reason. -/
theorem rereading_agrees {E : Type} [Arithmetic V E] :
    (∀ (text : List Char) (x : Expression V), parse text = .ok x →
      ofPostorder (x.tokens.map Token.bare) = .ok ⟨none, x.tokens⟩) ∧
    (∀ (text : List Char) (ts : List (Token V)), lex text = .ok ts →
      ∀ (before : List (Token V)) (t : Token V) (after : List (Token V)), ts = before ++ t :: after →
        t.kind = some .number → ∃ left right parts, Located before t after left right text ∧
          t.children = some parts ∧ Literal.Scans t.text right parts ∧ Literal.Scans t.text [] parts) ∧
    ∀ (f : Literal.Form) (front back : List Char), (∀ c ∈ front, CharClass.whitespace.has c = true) →
      (∀ c ∈ back, CharClass.whitespace.has c = true) →
        Literal.read (front ++ (f.text ++ back)) = Literal.read f.text ∧
        (f.Readable → ∃ (x : Expression V) (d : Decimal), parse (front ++ (f.text ++ back)) = .ok x ∧
          (∀ bindings, x.evaluate bindings = .ok (ofDecimal d)) ∧ Literal.read f.text = .ok d) ∧
        (¬ f.Readable → parse (V := V) (front ++ (f.text ++ back)) = .error (.read f.readError) ∧
          Literal.read f.text = .error f.readError) := by
  refine ⟨fun text x h => ofPostorder_bare h, fun text ts hlex before t after => exists_scans hlex,
    fun f front back hfront hback => ⟨Literal.read_spaced f hfront hback, fun hread => ?_, fun hread => ?_⟩⟩
  · obtain ⟨x, hx, hvalue⟩ :=
      parse_operand (V := V) (s := .number f) rfl hread (spaced_single (.number f) hfront hback)
    exact ⟨x, f.decimal, hx, fun bindings => hvalue bindings _ fun stack => rfl,
      (Literal.read_text f).trans (if_pos hread)⟩
  · have hwritten : (Formula.operand (Symbol.number f)).Renders false [.number f] := .operand rfl
    have hcut := cut_renders hwritten (spaced_single (.number f) hfront hback)
    obtain ⟨g, hg, -, hfail⟩ := parse_cut_overlong (V := V) hcut
      fun h => hread (h (.number f) (List.mem_singleton.2 rfl))
    obtain rfl : g = f := by simpa using hg
    exact ⟨hfail, (Literal.read_text g).trans (if_neg hread)⟩

end Reread

/-- In `2e+x`, the literal ends before a mark and a sign that no digit follows; ` -1,5e2\n` is one. -/
theorem rereading_agrees_exponent_mark :
    let _ : DigitLimit := .standard
    let text := ['2', 'e', '+', 'x']
    let literal := [' ', '-', '1', ',', '5', 'e', '2', '\n']
    (∃ x : Expression Decimal, parse text = .ok x ∧
      x.tokens.map Token.text = [['2'], ['e'], ['x'], ['+']] ∧
      ofPostorder (x.tokens.map Token.bare) = .ok ⟨none, x.tokens⟩) ∧
    (∃ (left right : List Char) (parts : Record (Token Decimal)), text = left ++ (['2'] ++ right) ∧
      Literal.Scans ['2'] right parts ∧ Literal.Scans ['2'] [] parts) ∧
    ∃ x : Expression Decimal, parse literal = .ok x ∧ x.evaluate (fun _ => none) = .ok ⟨-150, 0⟩ ∧
      Literal.read literal = .ok ⟨-150, 0⟩ := by
  intro limit text literal
  let two : Literal.Form := ⟨none, ⟨⟨'2', rfl⟩, []⟩, none, none⟩
  let f : Literal.Form := ⟨some ⟨'-', rfl⟩, ⟨⟨'1', rfl⟩, []⟩, some (⟨',', rfl⟩, ⟨⟨'5', rfl⟩, []⟩),
    some ⟨⟨'e', rfl⟩, none, ⟨⟨'2', rfl⟩, []⟩⟩⟩
  let later : List (Token Decimal) :=
    [.spelled .variable ['e'], .spelled .operator ['+'], .spelled .variable ['x']]
  have hx : parse text = .ok ⟨some text, [(Symbol.number two).valued, .spelled .variable ['e'],
      .spelled .variable ['x'], (.spelled .operator ['+'] : Token Decimal)]⟩ := by rfl
  have hlex : lex text = .ok ((Symbol.number two).token :: later) := by rfl
  have hf : Literal.read f.text = .ok ⟨-150, 0⟩ := by decide +kernel
  obtain ⟨hreread, hlexed, hliteral⟩ := rereading_agrees (V := Decimal)
  obtain ⟨left, right, parts, hplace, -, hthere, halone⟩ := hlexed text _ hlex [] _ later rfl rfl
  obtain ⟨hspaced, haccepted, -⟩ := hliteral f [' '] ['\n']
    (List.forall_mem_singleton.2 rfl) (List.forall_mem_singleton.2 rfl)
  obtain ⟨x, d, hparse, hvalue, hd⟩ := haccepted (by decide)
  obtain rfl : d = ⟨-150, 0⟩ := Except.ok.inj (hd.symm.trans hf)
  exact ⟨⟨_, hx, rfl, hreread text _ hx⟩, ⟨left, right, parts, hplace.text_eq, hthere, halone⟩,
    x, hparse, hvalue _, hspaced.trans hd⟩

end Expression

end Reckoner
