import Reckoner.Proofs.Literal.Longest
import Reckoner.Proofs.Scanner.Calls

/-!
# Scans that begin midway

The scan of a literal can be begun in any of its states. Some of them rely on what an earlier state has seen
ahead: a fraction or an exponent is opened only before a digit. `Situation` lists the situations in which a
state is called, with what is being written there and what has to follow. Every step leads from one of them
to another, or to an end without a part left open (`answers_step`), and so does a whole run (`safe_of_runs`),
which can break off only over an exponent of the text that has too many digits. Main theorem
`run_from_any_state`.
-/
namespace Reckoner

/-- Why a text is not recognised. -/
def LexError.reason : LexError → String
  | .unexpected _ _ reason | .incomplete _ reason => reason

/-- Where a text is not recognised: at its end, if it ends too early. -/
def LexError.position : LexError → Nat
  | .unexpected _ position _ => position
  | .incomplete input _ => input.length

/-! ## Turns by verdict -/

namespace Scanner

variable {V σ : Type} {m : Scanner V σ} {text : List Char} {k : Call V σ} {w : Workspace V}

theorem turn_goto {state : σ} (h : k.answer m text = .ok (.goto state, w)) (hne : k.rest ≠ []) :
    m.turn text k = .inl (k.next w state) := by
  obtain ⟨c, rest, hrest⟩ := List.exists_cons_of_ne_nil hne
  have hchar : k.char = some c := by rw [Call.char, hrest]; rfl
  simp only [turn, h, hchar]

theorem turn_finish (h : k.answer m text = .ok (.finish, w)) :
    m.turn text k = .inr (m.succeed text k.index w) := by
  simp only [turn, h]
  cases k.char with
  | none => rfl
  | some c => rfl

/-- A failure is reported where the state has been called, be it at the end. -/
theorem turn_fail {reason : String} (hk : k.Placed text) (h : k.answer m text = .ok (.fail reason, w)) :
    ∃ e, m.turn text k = .inr (.ok (reject w e)) ∧ e.reason = reason ∧ e.position = k.index := by
  simp only [turn, h]
  cases hchar : k.char with
  | none => exact ⟨.incomplete text reason, rfl, rfl, (hk.char_none.1 hchar).symm⟩
  | some c => exact ⟨.unexpected text k.index reason, rfl, rfl, rfl⟩

end Scanner

/-! ## Records -/

namespace Opened

variable {V : Type} {es : List (Option String × Token V)}

/-- Without a token under the key there is none to change. -/
theorem changeLatest_of_ne {key : String} {f : Lexeme → Except Misuse Lexeme} (h : ∀ e ∈ es, e.1 ≠ some key) :
    changeLatest key f es = .ok es := by
  induction es with
  | nil => rfl
  | cons e es ih =>
    obtain ⟨hne, hrest⟩ := List.forall_mem_cons.1 h
    simp only [changeLatest, hne, if_false, ih hrest, bind, Except.bind, pure, Except.pure]

theorem mem_putField {key : String} {t : Token V} {fields : List (String × Token V)} {p : String × Token V}
    (hp : p ∈ putField key t fields) : p = (key, t) ∨ p ∈ fields := by
  induction fields with
  | nil => simpa [putField] using hp
  | cons q fields ih =>
    obtain ⟨k, u⟩ := q
    unfold putField at hp
    split at hp
    · rename_i hkey
      rcases List.mem_cons.1 hp with rfl | hp
      · exact .inl (by rw [hkey])
      · exact .inr (List.mem_cons_of_mem _ hp)
    · rcases List.mem_cons.1 hp with rfl | hp
      · exact .inr List.mem_cons_self
      · exact (ih hp).imp_right (List.mem_cons_of_mem _)

/-- What is in a keyed record has been stored under its key. -/
theorem mem_of_mem_fields {p : String × Token V} (hp : p ∈ es.foldr putEntry []) : (some p.1, p.2) ∈ es := by
  induction es with
  | nil => simp at hp
  | cons e es ih =>
    obtain ⟨key, t⟩ := e
    cases key with
    | none => exact List.mem_cons_of_mem _ (ih hp)
    | some key =>
      rcases mem_putField hp with rfl | hp
      · exact List.mem_cons_self
      · exact List.mem_cons_of_mem _ (ih hp)

end Opened

namespace Literal

open CharClass

variable {V : Type}

/-! ## Parts -/

/-- The tokens of parts as a scan leaves them: none is empty, and the exponent is an integer. -/
inductive IsPart : String → Token V → Prop
  | sign (c : Member .sign) : IsPart "sign" (partToken [c.1])
  | integral (ds : Digits) : IsPart "integral" (partToken ds.text)
  | fraction (ds : Digits) : IsPart "fraction" (partToken ds.text)
  | exponent (n : Int) : IsPart "exponent" { lexeme := .made n }

/-- The entry is that of a part as a scan leaves it. -/
def HoldsPart (e : Option String × Token V) : Prop := ∃ key t, e = (some key, t) ∧ IsPart key t

/-- Parts that an exponent may follow. -/
def Mantissa (es : List (Option String × Token V)) : Prop := ∀ e ∈ es, HoldsPart e ∧ e.1 ≠ some "exponent"

/-- What a scan has written when it ends, having seen a text: an exponent is still spelled out as it was seen. -/
inductive Written (seen : List Char) : List (Option String × Token V) → Prop
  | mantissa {es : List (Option String × Token V)} (h : Mantissa es) : Written seen es
  | exponent {es : List (Option String × Token V)} (s : Option (Member .sign)) (ds : Digits)
    (hseen : signText s ++ ds.text <:+ seen) (h : Mantissa es) :
    Written seen (entry "exponent" (signText s ++ ds.text) :: es)

/-- An exponent in the text has too many digits to become an integer, and that is what the failure says. -/
def BreaksOff [DigitLimit] {α : Type} (text : List Char) (r : Except Misuse α) : Prop :=
  ∃ (s : Option (Member .sign)) (ds : Digits), signText s ++ ds.text <:+: text ∧
    ¬ DigitLimit.Allows ds.list.length ∧
    r = .error (.conversion (.tooLongToRead DigitLimit.most ds.list.length))

variable {es : List (Option String × Token V)}

theorem mantissa_nil : Mantissa (V := V) [] := by simp [Mantissa]

theorem Mantissa.cons {key : String} {text : List Char} (h : Mantissa es)
    (hpart : IsPart (V := V) key (partToken text)) (hkey : key ≠ "exponent") : Mantissa (entry key text :: es) :=
  List.forall_mem_cons.2 ⟨⟨⟨key, _, rfl, hpart⟩, by simpa [entry] using hkey⟩, h⟩

/-- An exponent that has been written is read as an integer, if it has not too many digits. -/
theorem Written.transform [DigitLimit] {seen : List Char} (h : Written seen es) :
    (∃ es', Scanner.transform es transformers = .ok es' ∧ ∀ e ∈ es', HoldsPart e) ∨
      BreaksOff seen (Scanner.transform es transformers) := by
  cases h with
  | mantissa h =>
    refine .inl ⟨es, ?_, fun e he => (h e he).1⟩
    simp only [Scanner.transform, transformers, Opened.changeLatest_of_ne fun e he => (h e he).2, bind, Except.bind]
  | @exponent es s ds hseen h =>
    by_cases hallowed : DigitLimit.Allows ds.list.length
    · refine .inl ⟨(some "exponent", { lexeme := .made (signFactor s * numeral ds.list) }) :: es, ?_, ?_⟩
      · simp only [Scanner.transform, transformers, entry, Opened.changeLatest, if_true, partToken,
          Transformer.integer, Transformer.onChars, parse_text, if_pos hallowed, bind, Except.bind, pure, Except.pure]
      · exact List.forall_mem_cons.2 ⟨⟨_, _, rfl, .exponent _⟩, fun e he => (h e he).1⟩
    · refine .inr ⟨s, ds, hseen.isInfix, hallowed, ?_⟩
      simp only [Scanner.transform, transformers, entry, Opened.changeLatest, if_true, partToken,
        Transformer.integer, Transformer.onChars, parse_text, if_neg hallowed, bind, Except.bind]

/-! ## Situations -/

/-- A workspace with what was eaten before the first token was opened, and the entries of tokens. -/
def writing (loose : List Char) (es : List (Option String × Token V)) : Workspace V := ⟨⟨partToken loose, es⟩, 0, []⟩

/-- Nothing but an exponent can follow: its sign, if there is one, and a digit. -/
def ExponentDue (rest : List Char) : Prop :=
  CharClass.digit.hasSome rest.head? = true ∨
    CharClass.sign.hasSome rest.head? = true ∧ CharClass.digit.hasSome rest[1]? = true

/-- The situations in which a state is called in a scan that began in the state `first`: between which
characters and after which entries. -/
inductive Situation (first : State) : State → List Char → List Char → List (Option String × Token V) → Prop
  | beginning {rest : List Char} : Situation first first [] rest []
  /-- Only an exponent that the scan began in has no token. -/
  | afterSign {c : Char} {rest : List Char} (h : first = .exponentSign) :
    Situation first .exponentFirstDigit [c] rest []
  | amongDigits {s : State} {seen rest : List Char} (hs : s.EatsDigits) : Situation first s seen rest []
  | sign {seen rest : List Char} (c : Member .sign) : Situation first .firstDigit seen rest [entry "sign" [c.1]]
  | integral {seen rest : List Char} {es : List (Option String × Token V)} (ds : Digits) (h : Mantissa es) :
    Situation first .digits seen rest (entry "integral" ds.text :: es)
  | fraction {seen rest : List Char} {es : List (Option String × Token V)} (ds : List (Member .digit))
    (hdue : ds = [] → CharClass.digit.hasSome rest.head? = true) (h : Mantissa es) :
    Situation first .fractionDigits seen rest (entry "fraction" (spelling ds) :: es)
  | exponent {seen rest : List Char} {es : List (Option String × Token V)} (hdue : ExponentDue rest)
    (h : Mantissa es) : Situation first .exponentSign seen rest (entry "exponent" [] :: es)
  | exponentAfterSign {seen rest : List Char} {es : List (Option String × Token V)} (c : Member .sign)
    (hseen : signText (some c) <:+ seen) (hdue : CharClass.digit.hasSome rest.head? = true) (h : Mantissa es) :
    Situation first .exponentFirstDigit seen rest (entry "exponent" [c.1] :: es)
  | exponentDigits {seen rest : List Char} {es : List (Option String × Token V)}
    (s : Option (Member .sign)) (ds : Digits) (hseen : signText s ++ ds.text <:+ seen) (h : Mantissa es) :
    Situation first .exponentDigits seen rest (entry "exponent" (signText s ++ ds.text) :: es)

/-- The scan began before the first digit of an exponent. -/
def BeganAtExponent (first : State) : Prop := first = .exponentSign ∨ first = .exponentFirstDigit

/-- What a state may answer: it goes on in another situation, ends with what a scan has written then, or fails
for want of a digit. A digit of an exponent can be missing only at the beginning. -/
inductive Answers (first : State) (seen : List Char) : List Char → Except Misuse (Verdict State × Workspace V) → Prop
  | goto {c : Char} {rest : List Char} {s : State} {loose : List Char} {es : List (Option String × Token V)}
    (h : Situation first s (seen ++ [c]) rest es) : Answers first seen (c :: rest) (.ok (.goto s, writing loose es))
  | finish {rest : List Char} {loose : List Char} {es : List (Option String × Token V)} (h : Written seen es) :
    Answers first seen rest (.ok (.finish, writing loose es))
  | noDigit {rest : List Char} {loose : List Char} {es : List (Option String × Token V)} :
    Answers first seen rest (.ok (.fail "expected a digit", writing loose es))
  | noExponentDigit {rest : List Char} {loose : List Char} (hfirst : BeganAtExponent first)
    (hseen : seen.length ≤ 1) : Answers first seen rest (.ok (.fail "expected an exponent digit", writing loose []))

/-! ## Single steps -/

variable {first : State} {input seen rest loose : List Char} {index : Nat}

theorem suffix_concat {t : List Char} (h : t <:+ seen) (c : Char) : t ++ [c] <:+ seen ++ [c] := by
  obtain ⟨before, rfl⟩ := h
  exact ⟨before, (List.append_assoc before t [c]).symm⟩

theorem getElem?_one (c : Char) (rest : List Char) : (c :: rest)[1]? = rest.head? := by
  rw [List.getElem?_cons_succ, List.head?_eq_getElem?]

theorem exec_eat_loose (s : State) (c : Char) :
    (eatThen s).exec .keyed ⟨input, index, c :: rest⟩ (writing loose []) =
      .ok (.goto s, writing (V := V) (loose ++ [c]) []) := rfl

theorem exec_eat_entry (s : State) (key : String) (text : List Char) (c : Char) :
    (eatThen s).exec .keyed ⟨input, index, c :: rest⟩ (writing loose (entry key text :: es)) =
      .ok (.goto s, writing (V := V) loose (entry key (text ++ [c]) :: es)) := rfl

theorem exec_open (key : String) (next : Script V (Verdict State)) (cursor : Cursor) :
    (part key next).exec .keyed cursor (writing loose es) =
      next.exec .keyed cursor (writing loose (entry key [] :: es)) := rfl

theorem answers_firstDigit (h : Mantissa es) :
    Answers first seen rest
      ((firstDigit rest.head?).exec .keyed ⟨input, index, rest⟩ (writing (V := V) loose es)) := by
  unfold firstDigit
  by_cases hdigit : CharClass.digit.hasSome rest.head? = true
  · obtain ⟨d, more, rfl⟩ := exists_cons_of_hasSome hdigit
    rw [if_pos hdigit, exec_open, exec_eat_entry]
    exact .goto (.integral ⟨d, []⟩ h)
  · rw [if_neg hdigit]
    exact .noDigit

/-- An exponent is opened only where one is due. -/
theorem answers_exponentMark (h : Mantissa es) :
    Answers first seen rest
      ((exponentMark rest.head?).exec .keyed ⟨input, index, rest⟩ (writing (V := V) loose es)) := by
  unfold exponentMark
  by_cases hmark : CharClass.exponent.hasSome rest.head? = true
  · obtain ⟨mark, more, rfl⟩ := exists_cons_of_hasSome hmark
    rw [if_pos hmark, exec_peek_one]
    by_cases hdigit : CharClass.digit.hasSome (mark.1 :: more)[1]? = true
    · rw [if_pos hdigit, exec_open]
      rw [getElem?_one] at hdigit
      exact .goto (.exponent (.inl hdigit) h)
    · rw [if_neg hdigit]
      by_cases hsign : CharClass.sign.hasSome (mark.1 :: more)[1]? = true
      · rw [if_pos hsign, exec_peek_two]
        by_cases hafter : CharClass.digit.hasSome (mark.1 :: more)[2]? = true
        · rw [if_pos hafter, exec_open]
          rw [getElem?_one] at hsign
          exact .goto (.exponent (.inr ⟨hsign, hafter⟩) h)
        · rw [if_neg hafter]
          exact .finish (.mantissa h)
      · rw [if_neg hsign]
        exact .finish (.mantissa h)
  · rw [if_neg hmark]
    exact .finish (.mantissa h)

/-- A fraction is opened only before a digit. -/
theorem answers_digits_end (h : Mantissa es) (hdigit : CharClass.digit.hasSome rest.head? = false) :
    Answers first seen rest ((digits rest.head?).exec .keyed ⟨input, index, rest⟩ (writing (V := V) loose es)) := by
  unfold digits
  rw [hdigit, if_neg Bool.false_ne_true]
  by_cases hpoint : CharClass.point.hasSome rest.head? = true
  · obtain ⟨mark, more, rfl⟩ := exists_cons_of_hasSome hpoint
    rw [if_pos hpoint, exec_peek_one]
    by_cases hfollowing : CharClass.digit.hasSome (mark.1 :: more)[1]? = true
    · rw [if_pos hfollowing, exec_open]
      rw [getElem?_one] at hfollowing
      exact .goto (.fraction [] (fun _ => hfollowing) h)
    · rw [if_neg hfollowing]
      exact answers_exponentMark h
  · rw [if_neg hpoint]
    exact answers_exponentMark h

theorem answers_fractionDigits_end (h : Mantissa es) (hdigit : CharClass.digit.hasSome rest.head? = false) :
    Answers first seen rest
      ((fractionDigits rest.head?).exec .keyed ⟨input, index, rest⟩ (writing (V := V) loose es)) := by
  unfold fractionDigits
  rw [hdigit, if_neg Bool.false_ne_true]
  exact answers_exponentMark h

/-- Among digits that have no token. -/
theorem answers_amongDigits {s : State} (hs : s.EatsDigits) :
    Answers first seen rest
      ((behaviour s rest.head?).exec .keyed ⟨input, index, rest⟩ (writing (V := V) loose [])) := by
  cases hdigit : CharClass.digit.hasSome rest.head? with
  | true =>
    obtain ⟨d, more, rfl⟩ := exists_cons_of_hasSome hdigit
    rw [List.head?_cons, behaviour_of_eatsDigits hs d.2, exec_eat_loose]
    exact .goto (.amongDigits hs)
  | false =>
    rcases hs with rfl | rfl | rfl
    · exact answers_digits_end mantissa_nil hdigit
    · exact answers_fractionDigits_end mantissa_nil hdigit
    · simp only [behaviour, exponentDigits, hdigit]
      exact .finish (.mantissa mantissa_nil)

/-- The first digit of an exponent that has no token. -/
theorem answers_exponentFirstDigit_loose (hfirst : BeganAtExponent first) (hseen : seen.length ≤ 1) :
    Answers first seen rest
      ((exponentFirstDigit rest.head?).exec .keyed ⟨input, index, rest⟩ (writing (V := V) loose [])) := by
  unfold exponentFirstDigit
  by_cases hdigit : CharClass.digit.hasSome rest.head? = true
  · obtain ⟨d, more, rfl⟩ := exists_cons_of_hasSome hdigit
    rw [if_pos hdigit, exec_eat_loose]
    exact .goto (.amongDigits (.inr (.inr rfl)))
  · rw [if_neg hdigit]
    exact .noExponentDigit hfirst hseen

/-- The first digit of an exponent that has a token. It has been looked up before. -/
theorem answers_exponentFirstDigit (s : Option (Member .sign)) (hseen : signText s <:+ seen) (h : Mantissa es)
    (hdue : CharClass.digit.hasSome rest.head? = true) :
    Answers first seen rest ((exponentFirstDigit rest.head?).exec .keyed ⟨input, index, rest⟩
      (writing (V := V) loose (entry "exponent" (signText s) :: es))) := by
  obtain ⟨d, more, rfl⟩ := exists_cons_of_hasSome hdue
  unfold exponentFirstDigit
  rw [if_pos hdue, exec_eat_entry]
  exact .goto (.exponentDigits s ⟨d, []⟩ (suffix_concat hseen d.1) h)

theorem answers_exponentSign (h : Mantissa es) (hdue : ExponentDue rest) :
    Answers first seen rest ((exponentSign rest.head?).exec .keyed ⟨input, index, rest⟩
      (writing (V := V) loose (entry "exponent" [] :: es))) := by
  unfold exponentSign
  by_cases hsign : CharClass.sign.hasSome rest.head? = true
  · obtain ⟨c, more, rfl⟩ := exists_cons_of_hasSome hsign
    have hnot : CharClass.digit.hasSome (c.1 :: more).head? = false := has_eq_false (l := .digit) rfl c.2
    have hafter := (hdue.resolve_left (Bool.eq_false_iff.1 hnot)).2
    rw [getElem?_one] at hafter
    rw [if_pos hsign, exec_eat_entry]
    exact .goto (.exponentAfterSign c (suffix_concat List.nil_suffix c.1) hafter h)
  · rw [if_neg hsign]
    exact answers_exponentFirstDigit none List.nil_suffix h (hdue.resolve_right fun hd => hsign hd.1)

/-- At the beginning nothing has been looked up. -/
theorem answers_beginning (first : State) :
    Answers first [] rest
      ((behaviour first rest.head?).exec .keyed ⟨input, index, rest⟩ (writing (V := V) loose [])) := by
  cases first with
  | start =>
    by_cases hsign : CharClass.sign.hasSome rest.head? = true
    · obtain ⟨c, more, rfl⟩ := exists_cons_of_hasSome hsign
      rw [List.head?_cons, behaviour_start_sign, exec_open, exec_eat_entry]
      exact .goto (.sign c)
    · rw [behaviour_start_of_not_sign (Bool.eq_false_iff.2 hsign)]
      exact answers_firstDigit mantissa_nil
  | firstDigit => exact answers_firstDigit mantissa_nil
  | digits => exact answers_amongDigits (.inl rfl)
  | fractionDigits => exact answers_amongDigits (.inr (.inl rfl))
  | exponentMark => exact answers_exponentMark mantissa_nil
  | exponentSign =>
    simp only [behaviour, exponentSign]
    by_cases hsign : CharClass.sign.hasSome rest.head? = true
    · obtain ⟨c, more, rfl⟩ := exists_cons_of_hasSome hsign
      rw [if_pos hsign, exec_eat_loose]
      exact .goto (.afterSign rfl)
    · rw [if_neg hsign]
      exact answers_exponentFirstDigit_loose (.inl rfl) (Nat.zero_le 1)
  | exponentFirstDigit => exact answers_exponentFirstDigit_loose (.inr rfl) (Nat.zero_le 1)
  | exponentDigits => exact answers_amongDigits (.inr (.inr rfl))

theorem exec_further {s : State} (hs : s.EatsDigits) (d : Member .digit) (key : String) (text more : List Char) :
    (behaviour s (some d.1)).exec .keyed ⟨input, index, d.1 :: more⟩ (writing loose (entry key text :: es)) =
      .ok (.goto s, writing (V := V) loose (entry key (text ++ [d.1]) :: es)) := by
  rw [behaviour_of_eatsDigits hs d.2, exec_eat_entry]

/-- Every situation leads to another one, or to an end. -/
theorem answers_step {s : State} (h : Situation first s seen rest es) (loose : List Char) :
    Answers first seen rest
      ((behaviour s rest.head?).exec .keyed ⟨input, index, rest⟩ (writing (V := V) loose es)) := by
  cases h with
  | beginning => exact answers_beginning first
  | afterSign hfirst => exact answers_exponentFirstDigit_loose (.inl hfirst) (Nat.le_refl 1)
  | amongDigits hs => exact answers_amongDigits hs
  | sign c => exact answers_firstDigit (mantissa_nil.cons (.sign c) (by decide))
  | integral ds h =>
    cases hdigit : CharClass.digit.hasSome rest.head? with
    | true =>
      obtain ⟨d, more, rfl⟩ := exists_cons_of_hasSome hdigit
      rw [List.head?_cons, exec_further (.inl rfl), ← Digits.text_add]
      exact .goto (.integral (ds.add d) h)
    | false => exact answers_digits_end (h.cons (.integral ds) (by decide)) hdigit
  | fraction ds hdue h =>
    cases hdigit : CharClass.digit.hasSome rest.head? with
    | true =>
      obtain ⟨d, more, rfl⟩ := exists_cons_of_hasSome hdigit
      have hspelling : spelling ds ++ [d.1] = spelling (ds ++ [d]) := by simp [spelling]
      rw [List.head?_cons, exec_further (.inr (.inl rfl)), hspelling]
      exact .goto (.fraction (ds ++ [d]) (by simp) h)
    | false =>
      -- A digit was due when the fraction was opened, so that it has one by now.
      cases ds with
      | nil => rw [hdue rfl] at hdigit; cases hdigit
      | cons d ds => exact answers_fractionDigits_end (h.cons (.fraction ⟨d, ds⟩) (by decide)) hdigit
  | exponent hdue h => exact answers_exponentSign h hdue
  | exponentAfterSign c hseen hdue h => exact answers_exponentFirstDigit (some c) hseen h hdue
  | exponentDigits s ds hseen h =>
    cases hdigit : CharClass.digit.hasSome rest.head? with
    | true =>
      obtain ⟨d, more, rfl⟩ := exists_cons_of_hasSome hdigit
      rw [List.head?_cons, exec_further (.inr (.inr rfl)), List.append_assoc, ← Digits.text_add]
      exact .goto (.exponentDigits s (ds.add d) (by simpa [Digits.text_add] using suffix_concat hseen d.1) h)
    | false =>
      simp only [behaviour, exponentDigits, hdigit]
      exact .finish (.exponent s ds hseen h)

/-! ## Whole runs -/

section

variable [DigitLimit]

/-- Only a text that is longer than the limit can make a scan break off. -/
theorem BreaksOff.not_allows {α : Type} {text : List Char} {r : Except Misuse α} (h : BreaksOff text r) :
    ¬ DigitLimit.Allows text.length := by
  obtain ⟨s, ds, hwithin, hlong, -⟩ := h
  have hle : ds.list.length ≤ text.length := by
    have hlength := hwithin.length_le
    simp only [List.length_append, Digits.text, spelling, List.length_map] at hlength
    omega
  exact fun h => hlong (h.mono hle)

/-- The call is made in a situation that a scan from `first` can be in. -/
def InSituation (first : State) (text : List Char) (k : Call V State) : Prop :=
  ∃ loose es, k.workspace = writing loose es ∧ Situation first k.state (text.take k.index) k.rest es

/-- What a run from a state comes to: parts without exception, or a digit that is missing. If it is missing of
an exponent, the run began there, it is at most the second character, and no token has been opened. -/
structure IsSafe (first : State) (text : List Char) (calls : List (Call V State)) (o : Outcome V) : Prop where
  parts : ∀ t, o.result = .ok t → ∃ fields, t.tokens = .keyed fields ∧ ∀ p ∈ fields, IsPart p.1 p.2
  failure : ∀ e, o.result = .error e → e.reason = "expected a digit" ∨
    e.reason = "expected an exponent digit" ∧ BeganAtExponent first ∧ e.position ≤ 1 ∧
      ∀ k ∈ calls, ∀ verdict w, k.answer (scannerFrom first) text = .ok (verdict, w) → w.opened.entries = []

variable {text : List Char} {k k' : Call V State} {calls : List (Call V State)} {o : Outcome V}

theorem IsSafe.of_ok {fields : List (String × Token V)} {consumed : Nat}
    (ho : o.result = .ok ⟨.keyed fields, consumed⟩) (h : ∀ p ∈ fields, IsPart p.1 p.2) :
    IsSafe first text calls o := by
  refine ⟨fun t ht => ?_, fun e he => ?_⟩
  · rw [ho] at ht
    cases ht
    exact ⟨fields, rfl, h⟩
  · rw [ho] at he
    cases he

theorem IsSafe.of_error {e : LexError} (ho : o.result = .error e)
    (h : e.reason = "expected a digit" ∨
      e.reason = "expected an exponent digit" ∧ BeganAtExponent first ∧ e.position ≤ 1 ∧
        ∀ k ∈ calls, ∀ verdict w, k.answer (scannerFrom first) text = .ok (verdict, w) → w.opened.entries = []) :
    IsSafe first text calls o := by
  refine ⟨fun t ht => ?_, fun e' he => ?_⟩
  · rw [ho] at ht
    cases ht
  · rw [ho] at he
    cases he
    exact h

theorem answers_call (hk : InSituation first text k) :
    Answers first (text.take k.index) k.rest (k.answer (scannerFrom first) text) := by
  obtain ⟨loose, es, hworkspace, hsituation⟩ := hk
  have hanswer : k.answer (scannerFrom first) text =
      (behaviour k.state k.rest.head?).exec .keyed ⟨text, k.index, k.rest⟩ (writing loose es) := by
    rw [Call.answer, hworkspace]
    rfl
  rw [hanswer]
  exact answers_step hsituation loose

/-- What is written when a scan ends makes its tokens. -/
theorem succeed_written (first : State) (text loose : List Char) (index : Nat)
    (h : Written (text.take index) es) :
    (∃ o fields, (scannerFrom first).succeed text index (writing loose es) = .ok o ∧
      o.result = .ok ⟨.keyed fields, index⟩ ∧ ∀ p ∈ fields, IsPart p.1 (p.2 : Token V)) ∨
    BreaksOff text ((scannerFrom first).succeed text index (writing loose es)) := by
  rcases h.transform with ⟨es', htransform, hparts⟩ | ⟨s, ds, hseen, hlong, htransform⟩
  · refine .inl ⟨Scanner.leave ((writing loose es).record (.tokenized text index))
      (.ok ⟨.keyed (es'.foldr Opened.putEntry []), index⟩), _, ?_, rfl, fun p hp => ?_⟩
    · simp only [Scanner.succeed, writing, scannerFrom, htransform, bind, Except.bind, pure, Except.pure]
      rfl
    · obtain ⟨key, t, he, hpart⟩ := hparts _ (Opened.mem_of_mem_fields hp)
      obtain ⟨hkey, rfl⟩ := Prod.mk.inj he
      rw [Option.some.inj hkey]
      exact hpart
  · refine .inr ⟨s, ds, hseen.trans (List.take_prefix index text).isInfix, hlong, ?_⟩
    simp only [Scanner.succeed, writing, scannerFrom, htransform, bind, Except.bind]

/-- Whatever situation a run is in, it comes to an end there, or goes on in another. -/
theorem turn_safe (hk : InSituation first text k) (hplaced : k.Placed text) :
    (∃ k', (scannerFrom first).turn text k = .inl k' ∧ InSituation first text k') ∨
      ∃ r, (scannerFrom first).turn text k = .inr r ∧
        ((∃ o, r = .ok o ∧ IsSafe first text [k] o) ∨ BreaksOff text r) := by
  have hanswers := answers_call hk
  generalize hrest : k.rest = rest at hanswers
  generalize hanswer : k.answer (scannerFrom first) text = answer at hanswers
  cases hanswers with
  | @goto c rest s loose es h =>
    refine .inl ⟨_, Scanner.turn_goto hanswer (by simp [hrest]), loose, es, rfl, ?_⟩
    have hc : text[k.index]? = some c := by rw [← hplaced.char_eq, Call.char, hrest, List.head?_cons]
    have hseen : text.take (k.index + 1) = text.take k.index ++ [c] := by
      rw [List.take_add_one, hc, Option.toList_some]
    simp only [Call.next, hrest]
    exact hseen ▸ h
  | @finish _ loose es h =>
    refine .inr ⟨_, Scanner.turn_finish hanswer, ?_⟩
    refine (succeed_written first text loose k.index h).imp_left ?_
    rintro ⟨o, fields, ho, hresult, hparts⟩
    exact ⟨o, ho, .of_ok hresult hparts⟩
  | noDigit =>
    obtain ⟨e, hturn, hreason, -⟩ := Scanner.turn_fail hplaced hanswer
    exact .inr ⟨_, hturn, .inl ⟨_, rfl, .of_error rfl (.inl hreason)⟩⟩
  | noExponentDigit hfirst hseen =>
    obtain ⟨e, hturn, hreason, hposition⟩ := Scanner.turn_fail hplaced hanswer
    rw [List.length_take_of_le hplaced.index_le] at hseen
    refine .inr ⟨_, hturn, .inl ⟨_, rfl, .of_error rfl (.inr ⟨hreason, hfirst, hposition ▸ hseen, ?_⟩)⟩⟩
    intro c hc verdict w hw
    rw [List.mem_singleton.1 hc, hanswer] at hw
    cases hw
    rfl

theorem exists_answer (hk : InSituation first text k) :
    ∃ verdict w, k.answer (scannerFrom first) text = .ok (verdict, w) := by
  have hanswers := answers_call hk
  generalize k.answer (scannerFrom first) text = answer at hanswers ⊢
  generalize k.rest = rest at hanswers
  cases hanswers <;> exact ⟨_, _, rfl⟩

/-- Where a later step finds that no token has been opened, none has been opened before. -/
theorem entries_eq_nil {verdict : Verdict State} {w w' : Workspace V} {state : State}
    (h : (k.next w state).answer (scannerFrom first) text = .ok (verdict, w')) (hnil : w'.opened.entries = []) :
    w.opened.entries = [] := by
  have hcount : w.count ≤ w'.count := (Scanner.advances_answer h).count_le
  rw [Workspace.count, Workspace.count, hnil, List.length_nil, Nat.le_zero] at hcount
  exact List.eq_nil_of_length_eq_zero hcount

/-- A whole run is safe, since each of its turns is. -/
theorem safe_of_runs {r : Except Misuse (Outcome V)} (h : Scanner.Runs (scannerFrom first) text k calls r)
    (hk : InSituation first text k) (hplaced : k.Placed text) :
    (∃ o, r = .ok o ∧ IsSafe first text calls o) ∨ BreaksOff text r := by
  induction h with
  | @last k r hturn =>
    rcases turn_safe hk hplaced with ⟨k', hnext, -⟩ | ⟨r', hover, hsafe⟩
    · rw [hturn] at hnext
      cases hnext
    · rw [hturn] at hover
      exact Sum.inr.inj hover ▸ hsafe
  | @next k k' calls r hturn hrest ih =>
    rcases turn_safe hk hplaced with ⟨k'', hnext, hk'⟩ | ⟨r', hover, -⟩
    · rw [hturn] at hnext
      obtain rfl := Sum.inl.inj hnext
      refine (ih hk' (Scanner.placed_of_turn hturn hplaced)).imp_left ?_
      rintro ⟨o, ho, hsafe⟩
      refine ⟨o, ho, hsafe.parts, fun e he => (hsafe.failure e he).imp_right ?_⟩
      rintro ⟨hreason, hfirst, hposition, hnone⟩
      refine ⟨hreason, hfirst, hposition, List.forall_mem_cons.2 ⟨fun verdict w hw => ?_, hnone⟩⟩
      obtain ⟨verdict', w', state, hanswer, -, -, -, rfl⟩ := Scanner.turn_next hturn
      obtain ⟨-, rfl⟩ := Prod.mk.inj (Except.ok.inj (hanswer.symm.trans hw))
      obtain ⟨calls', rfl⟩ := hrest.exists_cons
      obtain ⟨verdict'', w'', hanswer'⟩ := exists_answer hk'
      exact entries_eq_nil hanswer' (hnone _ List.mem_cons_self _ _ hanswer')
    · rw [hturn] at hover
      cases hover

/-- **The states of a literal are safe from any entry.** Begun in any of its states, the scan of any text
returns or fails for want of a digit, unless an exponent in the text has too many digits: an exponent is always
read as an integer, and nothing else can be misused. The tokens of a scan that ends well are parts of a literal,
none of them empty. A digit of an exponent is missing only where the scan began before it, on one of the first
two characters, and before any token has been opened. -/
theorem run_from_any_state (first : State) (text : List Char) :
    scannerNamed first.label = .ok (scannerFrom (V := V) first) ∧
      ∃ calls r, (scannerFrom first).run text = r ∧
        Scanner.Runs (scannerFrom (V := V) first) text ((scannerFrom first).firstCall text) calls r ∧
        ((∃ o, r = .ok o ∧ IsSafe first text calls o) ∨ BreaksOff text r) := by
  refine ⟨by cases first <;> rfl, ?_⟩
  obtain ⟨calls, hruns⟩ := Scanner.exists_runs (scannerFrom first) text ((scannerFrom first).firstCall text)
  have hbeginning : InSituation first text ((scannerFrom (V := V) first).firstCall text) :=
    ⟨[], [], rfl, .beginning⟩
  exact ⟨calls, _, rfl, hruns, safe_of_runs hruns hbeginning (Scanner.placed_firstCall _ text)⟩

end

end Literal

end Reckoner
