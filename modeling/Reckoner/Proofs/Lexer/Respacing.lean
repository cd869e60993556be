import Reckoner.Proofs.Lexer.Spacing

/-!
# Other white space between tokens

A symbol is told from what follows by the next few characters. When white space is put between symbols,
or other white space in place of some, these stay what they are, up to white space that comes earlier
than before (`exists_common`), and white space prolongs no symbol (`Symbol.Stands.of_common`). So the cut
of a text stays the same (`Cut.respaced`). Main theorem `lex_respaced`: so do its tokens.
-/
namespace Reckoner.Lexer

open Lexer.Symbol

variable {V : Type}

/-! ## Texts with given white space -/

/-- White space, character by character. -/
abbrev Blanks := List (CharClass.Member .whitespace)

def Blanks.text (g : Blanks) : List Char := g.map (·.1)

/-- The tokens in writing: `gap i` is the white space in front of the token that has `i` tokens before
it, and the next gap after the last token is the white space at the end. -/
def spread (gap : Nat → Blanks) : List (Token V) → List Char
  | [] => (gap 0).text
  | t :: ts => (gap 0).text ++ (t.text ++ spread (fun i => gap (i + 1)) ts)

/-- Slices of a text leave just the gaps between them. -/
theorem exists_spread {ts : List (Token V)} {text : List Char} (h : Slices ts text) :
    ∃ gap, spread gap ts = text := by
  induction h with
  | nil => exact ⟨fun _ => [], rfl⟩
  | @blank c ts rest hc _ ih =>
    obtain ⟨gap, hgap⟩ := ih
    let first : Blanks := ⟨c, hc⟩ :: gap 0
    refine ⟨fun | 0 => first | i + 1 => gap (i + 1), ?_⟩
    cases ts <;> simp [spread, first, Blanks.text, ← hgap]
  | token t _ ih =>
    obtain ⟨gap, hgap⟩ := ih
    exact ⟨fun | 0 => [] | i + 1 => gap i, by simp [spread, Blanks.text, hgap]⟩

theorem gap_blanks (g : Blanks) : Gap g.text := by
  intro c hc
  obtain ⟨d, _, rfl⟩ := List.mem_map.1 (List.mem_of_head? hc)
  exact d.2

theorem gap_append {g : Blanks} (hg : g ≠ []) (rest : List Char) : Gap (g.text ++ rest) := by
  intro c hc
  have hne : g.text ≠ [] := mt List.map_eq_nil_iff.1 hg
  rw [List.head?_append_of_ne_nil _ hne] at hc
  exact gap_blanks g c hc

/-! ## The first characters of the rest -/

/-- If all gaps of the second text either are those of the first or are not empty, the texts agree up to
where the second goes on with white space, or ends. -/
theorem exists_common {gap gap' : Nat → Blanks} : ∀ {ts : List (Token V)},
    (∀ i < ts.length, gap' i = gap i ∨ gap' i ≠ []) → ∃ front rest rest',
      spread gap ts = front ++ rest ∧ spread gap' ts = front ++ rest' ∧ Gap rest'
  | [], _ => ⟨[], _, _, rfl, rfl, gap_blanks (gap' 0)⟩
  | t :: ts, h => by
    rcases h 0 (by simp) with hsame | hne
    · have hlater : ∀ i < ts.length, gap' (i + 1) = gap (i + 1) ∨ gap' (i + 1) ≠ [] := fun i hi =>
        h (i + 1) (by simpa using hi)
      obtain ⟨front, rest, rest', hrest, hrest', hgap⟩ := exists_common hlater
      refine ⟨(gap 0).text ++ (t.text ++ front), rest, rest', ?_, ?_, hgap⟩
      · simp [spread, hrest]
      · simp [spread, hrest', hsame]
    · exact ⟨[], _, _, rfl, rfl, gap_append hne _⟩

/-- White space that comes earlier prolongs no literal: three characters tell whether one goes on. -/
theorem ends_of_common {f : Literal.Form} {front rest rest' : List Char} (h : f.Ends (front ++ rest))
    (hgap : Gap rest') : f.Ends (front ++ rest') := by
  have next {k : CharClass} (hk : CharClass.whitespace.apart k = true) :
      k.hasSome rest'[0]? = false := by
    rw [← List.head?_eq_getElem?]
    exact hasSome_of_gap hk hgap
  match front with
  | [] => exact ends_of_gap hgap f
  | [c] =>
    refine ⟨h.digit, fun _ _ _ => next rfl, fun _ _ => ⟨next rfl, fun hsign => ?_⟩⟩
    have hsecond : ([c] ++ rest')[1]? = rest'[0]? := rfl
    rw [hsecond, next rfl] at hsign
    cases hsign
  | [c, d] => exact ⟨h.digit, h.fraction, fun he hc => ⟨(h.exponent he hc).1, fun _ => next rfl⟩⟩
  | _ :: _ :: _ :: _ => exact ⟨h.digit, h.fraction, h.exponent⟩

theorem Symbol.Stands.of_common {s : Symbol} {due : Bool} {front rest rest' : List Char}
    (h : s.Stands due (front ++ rest)) (hgap : Gap rest') : s.Stands due (front ++ rest') := by
  cases front with
  | nil =>
    refine stands_of_gap hgap fun f hf => ?_
    subst hf
    exact h.2
  | cons c front =>
    -- all but literals look at the next character only
    cases s with
    | number f => exact ⟨ends_of_common h.1 hgap, h.2⟩
    | name n => exact h
    | operator d => exact h
    | separator d => trivial
    | bracket d => trivial

/-! ## The cut -/

/-- White space in front belongs to no symbol. -/
theorem cut_blanks {due : Bool} {ss : List Symbol} {rest : List Char} : ∀ {g : Blanks},
    Cut due ss (g.text ++ rest) ↔ Cut due ss rest
  | [] => Iff.rfl
  | c :: g => by
    refine Iff.trans ⟨fun h => ?_, .blank c.2⟩ cut_blanks
    generalize htext : Blanks.text (c :: g) ++ rest = text at h
    cases h with
    | nil => cases htext
    | blank _ h => exact (List.cons.inj htext).2 ▸ h
    | symbol s _ _ =>
      -- a symbol does not start with white space
      obtain ⟨d, more, hs⟩ := List.exists_cons_of_ne_nil s.text_ne_nil
      rw [hs] at htext
      have hd := s.not_whitespace d (by simp [hs])
      rw [← (List.cons.inj htext).1, c.2] at hd
      cases hd

/-- Where a symbol is next in the text, it is next in the cut. -/
theorem cut_symbol {due : Bool} {s : Symbol} {ss : List Symbol} {rest : List Char} :
    Cut due (s :: ss) (s.text ++ rest) ↔ s.Stands due rest ∧ Cut s.leavesDue ss rest := by
  refine ⟨fun h => ?_, fun h => .symbol s h.1 h.2⟩
  generalize htext : s.text ++ rest = text at h
  cases h with
  | @blank _ c _ _ hc _ =>
    obtain ⟨d, more, hs⟩ := List.exists_cons_of_ne_nil s.text_ne_nil
    rw [hs] at htext
    have hd := s.not_whitespace d (by simp [hs])
    rw [(List.cons.inj htext).1, hc] at hd
    cases hd
  | symbol s hs h =>
    obtain rfl := List.append_cancel_left htext
    exact ⟨hs, h⟩

/-- With the gap there was between two symbols, or any that is not empty, the text is cut as before. -/
theorem Cut.respaced : ∀ {ss : List Symbol} {due : Bool} {gap gap' : Nat → Blanks},
    Cut due ss (spread gap (ss.map (token (V := V)))) →
      (∀ i, 0 < i → i < ss.length → gap' i = gap i ∨ gap' i ≠ []) →
        Cut due ss (spread gap' (ss.map (token (V := V))))
  | [], due, gap, gap', _, _ => by
    rw [List.map_nil, spread, ← List.append_nil (gap' 0).text, cut_blanks]
    exact .nil
  | s :: ss, due, gap, gap', h, hgaps => by
    rw [List.map_cons, spread, cut_blanks, s.text_token, cut_symbol] at h ⊢
    have hlater : ∀ i < ss.length, gap' (i + 1) = gap (i + 1) ∨ gap' (i + 1) ≠ [] := fun i hi =>
      hgaps (i + 1) i.succ_pos (by simpa using hi)
    have hlater' : ∀ i < (ss.map (token (V := V))).length,
        gap' (i + 1) = gap (i + 1) ∨ gap' (i + 1) ≠ [] := by simpa using hlater
    obtain ⟨front, rest, rest', hrest, hrest', hgap⟩ :=
      exists_common hlater'
    refine ⟨?_, h.2.respaced fun i _ hi => hlater i hi⟩
    rw [hrest']
    exact Symbol.Stands.of_common (hrest ▸ h.1) hgap

/-- **Respacing.** The tokens of a text that is lexed stay the same, with all that they hold, when the text is
written with other white space: at its ends as one likes, and between two tokens what there was or any that is
not empty. -/
theorem lex_respaced [DigitLimit] {text : List Char} {ts : List (Token V)} (h : lex text = .ok ts) :
    (∃ gap, spread gap ts = text) ∧
      (∀ gap, (∀ i, 0 < i → i < ts.length → gap i ≠ []) → lex (spread gap ts) = .ok ts) ∧
      ∀ gap gap', spread gap ts = text →
        (∀ i, 0 < i → i < ts.length → gap' i = gap i ∨ gap' i ≠ []) →
          lex (spread gap' ts) = .ok ts := by
  obtain ⟨ss, hcut, hscan, rfl⟩ := exists_cut_of_lex h
  have respaced : ∀ gap gap', spread gap (ss.map (token (V := V))) = text →
      (∀ i, 0 < i → i < (ss.map (token (V := V))).length → gap' i = gap i ∨ gap' i ≠ []) →
        lex (spread gap' (ss.map (token (V := V)))) = .ok (ss.map (token (V := V))) := by
    intro gap gap' htext hgaps
    rw [← htext] at hcut
    exact lex_cut (hcut.respaced (by simpa using hgaps)) hscan
  obtain ⟨gap, htext⟩ := exists_spread (slices_of_cut (V := V) hcut)
  exact ⟨⟨gap, htext⟩, fun gap' hgaps =>
    respaced gap gap' htext fun i hpos hi => .inr (hgaps i hpos hi), respaced⟩

/-- `2 -1e+x` and ` 2\t\n-1 e+x\r`: with space on one side only the minus is no sign, and the mark that no
digits follow is a name. -/
theorem lex_respaced_minus :
    let _ : DigitLimit := .standard
    let text := ['2', ' ', '-', '1', 'e', '+', 'x']
    let respaced := [' ', '2', '\t', '\n', '-', '1', ' ', 'e', '+', 'x', '\r']
    ∃ ts : List (Token Unit), lex text = .ok ts ∧ lex respaced = .ok ts ∧
      ts.map (fun t => (t.kind, t.text)) = [(some .number, ['2']), (some .operator, ['-']),
        (some .number, ['1']), (some .variable, ['e']), (some .operator, ['+']),
        (some .variable, ['x'])] := by
  intro limit text respaced
  let space : CharClass.Member .whitespace := ⟨' ', rfl⟩
  let gap : Nat → Blanks := fun | 1 => [space] | _ => []
  let gap' : Nat → Blanks := fun
    | 0 => [space]
    | 1 => [⟨'\t', rfl⟩, ⟨'\n', rfl⟩]
    | 3 => [space]
    | 6 => [⟨'\r', rfl⟩]
    | _ => []
  let number (c : Char) (h : CharClass.digit.has c = true) : Token Unit :=
    (Symbol.number ⟨none, ⟨⟨c, h⟩, []⟩, none, none⟩).token
  have hlex : lex text = .ok [number '2' rfl, .spelled .operator ['-'], number '1' rfl,
      .spelled .variable ['e'], .spelled .operator ['+'], .spelled .variable ['x']] := by rfl
  obtain ⟨-, -, h⟩ := lex_respaced hlex
  refine ⟨_, hlex, h gap gap' rfl fun i _ hi => ?_, rfl⟩
  match i with
  | 1 | 3 => exact .inr (by simp [gap'])
  | 2 | 4 | 5 => exact .inl rfl

end Reckoner.Lexer
