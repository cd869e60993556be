import Reckoner.Proofs.Lexer.Cut

/-!
# Lexing symbols with white space between them

With white space between any two symbols, each is lexed on its own: a literal because white space
prolongs none, a name because white space delimits it, and a sign as an operator or as a part of a
number according to what came before. Main theorem `lex_spaced`: the tokens of such a text are those
of its symbols, in order.
-/
namespace Reckoner.Lexer

open Lexer.Symbol

variable {V : Type}

/-- The text spells the symbols: white space stands around them as one likes, and between any two
there is some. -/
inductive Spaced : List Symbol → (text : List Char) → Prop
  | nil : Spaced [] []
  | blank {c : Char} {ss : List Symbol} {text : List Char} (hc : CharClass.whitespace.has c = true)
      (h : Spaced ss text) : Spaced ss (c :: text)
  | last (s : Symbol) : Spaced [s] s.text
  | cons (s : Symbol) {c : Char} {ss : List Symbol} {text : List Char}
      (hc : CharClass.whitespace.has c = true) (h : Spaced ss text) :
      Spaced (s :: ss) (s.text ++ c :: text)

/-- White space may be put in front. -/
theorem Spaced.blanks {ss : List Symbol} {text : List Char} (h : Spaced ss text) :
    ∀ {front : List Char}, (∀ c ∈ front, CharClass.whitespace.has c = true) → Spaced ss (front ++ text)
  | [], _ => h
  | c :: front, hfront =>
    .blank (hfront c (by simp)) (h.blanks fun d hd => hfront d (List.mem_cons_of_mem c hd))

theorem spaced_single (s : Symbol) {front back : List Char}
    (hfront : ∀ c ∈ front, CharClass.whitespace.has c = true)
    (hback : ∀ c ∈ back, CharClass.whitespace.has c = true) :
    Spaced [s] (front ++ (s.text ++ back)) := by
  refine Spaced.blanks ?_ hfront
  cases back with
  | nil =>
    rw [List.append_nil]
    exact .last s
  | cons c back =>
    have hblank : Spaced [] (back ++ []) :=
      Spaced.nil.blanks fun d hd => hback d (List.mem_cons_of_mem c hd)
    rw [List.append_nil] at hblank
    exact .cons s (hback c (by simp)) hblank

/-- Does the text end here, or go on with white space? -/
def Gap (rest : List Char) : Prop := ∀ c, rest.head? = some c → CharClass.whitespace.has c = true

/-- A gap starts with nothing of a class that has no white space. -/
theorem hasSome_of_gap {k : CharClass} (hk : CharClass.whitespace.apart k = true) {rest : List Char}
    (h : Gap rest) : k.hasSome rest.head? = false := by
  cases hc : rest.head? with
  | none => rfl
  | some c => exact CharClass.has_eq_false hk (h c hc)

/-- White space, or the end of the text, prolongs no literal. -/
theorem ends_of_gap {rest : List Char} (h : Gap rest) (f : Literal.Form) : f.Ends rest := by
  refine ⟨hasSome_of_gap rfl h, fun _ _ hpoint => ?_, fun _ hexponent => ?_⟩
  · rw [hasSome_of_gap rfl h] at hpoint
    cases hpoint
  · rw [hasSome_of_gap rfl h] at hexponent
    cases hexponent

/-- Before a gap, a symbol stands by itself, unless it is a number that has a sign where no operand is
due. -/
theorem stands_of_gap {s : Symbol} {due : Bool} {rest : List Char} (h : Gap rest)
    (hs : ∀ f, s = .number f → f.sign.isSome = true → due = true) : s.Stands due rest := by
  cases s with
  | number f => exact ⟨ends_of_gap h f, hs f rfl⟩
  | name n =>
    change rest.head?.all isDelimiter = true
    cases hc : rest.head? with
    | none => rfl
    | some c => exact CharClass.forall_has (P := fun c => isDelimiter c = true) (by decide) (h c hc)
  | operator c => exact fun _ _ => hasSome_of_gap rfl h
  | separator c => trivial
  | bracket c => trivial

/-- White space between symbols cuts the text into them. -/
theorem cut_of_spaced {ss : List Symbol} {text : List Char} (h : Spaced ss text) :
    ∀ {due : Bool}, Alternate due ss → Cut due ss text := by
  induction h with
  | nil => exact fun _ => .nil
  | blank hc _ ih => exact fun hss => .blank hc (ih hss)
  | last s =>
    intro due hss
    have hgap : Gap [] := fun c hc => by cases hc
    rw [← List.append_nil s.text]
    exact .symbol s (stands_of_gap hgap fun f hf _ => hss.1 (by rw [hf]; rfl)) .nil
  | @cons s c ss text hc _ ih =>
    intro due ⟨hoperand, _, hss⟩
    have hgap : Gap (c :: text) := fun d hd => Option.some.inj hd ▸ hc
    refine .symbol s (stands_of_gap hgap fun f hf _ => ?_) (.blank hc (ih hss))
    exact hoperand (by rw [hf]; rfl)

/-- White space between symbols tells them apart. -/
theorem lex_spaced [DigitLimit] {ss : List Symbol} {text : List Char} (h : Spaced ss text)
    (hss : Alternate true ss) (hscan : ∀ s ∈ ss, s.Scannable) :
    lex text = .ok (ss.map (token (V := V))) :=
  lex_cut (cut_of_spaced h hss) hscan

end Reckoner.Lexer
