import Mathlib.Data.List.TakeWhile
import Reckoner.Proofs.Evaluation.Value
import Reckoner.Proofs.Session.Transcript

/-!
# Names of a session

Names are recognised twice: by a session, which assigns to them, and by the lexer, to which a name is
whatever no delimiter interrupts. A name of a session is one of the lexer's (`IsName.exists_name`), and
its value is the one last assigned to it (`lookup_run`). Main theorem `read_after_write`: a name that
names no function is read back as it was written. A name of a function can be assigned to, but stays a
function (`function_name_hides_value`).
-/
namespace Reckoner

/-! ## Word characters -/

/-- The delimiters are ASCII characters that are no word characters, and three operators. -/
theorem Lexer.delimiter_cases {c : Char} (h : isDelimiter c = true) :
    (c.toNat < 128 ∧ (c.isAlphanum || c == '_') = false) ∨ c ∈ ['−', '×', '÷'] := by
  simp only [isDelimiter, Bool.or_eq_true] at h
  rcases h with ((h | h) | h) | h
  · exact forall_symbol (P := fun c => (c.toNat < 128 ∧ (c.isAlphanum || c == '_') = false) ∨
      c ∈ ['−', '×', '÷']) (by decide) h
  · exact .inl (CharClass.forall_has (P := fun c => c.toNat < 128 ∧ (c.isAlphanum || c == '_') = false)
      (by decide) h)
  · exact .inl (CharClass.forall_has (P := fun c => c.toNat < 128 ∧ (c.isAlphanum || c == '_') = false)
      (by decide) h)
  · exact .inl (CharClass.forall_has (P := fun c => c.toNat < 128 ∧ (c.isAlphanum || c == '_') = false)
      (by decide) h)

namespace NameChars

variable [NameChars] {c : Char}

theorem isMargin_of_isWord (h : isWord c = true) : isMargin c = false :=
  Bool.eq_false_iff.2 fun hmargin => by simp [word_of_margin c hmargin] at h

theorem isSpace_of_isWord (h : isWord c = true) : isSpace c = false :=
  Bool.eq_false_iff.2 fun hspace => by simp [word_of_space c hspace] at h

theorem isDelimiter_of_isWord (h : isWord c = true) : Lexer.isDelimiter c = false := by
  rw [Bool.eq_false_iff]
  intro hc
  rcases Lexer.delimiter_cases hc with ⟨hascii, hnot⟩ | hsymbol
  · rw [ascii_word c hascii, hnot] at h
    cases h
  · rw [word_of_symbol c hsymbol] at h
    cases h

theorem isWord_of_isWordStart (h : isWordStart c = true) : isWord c = true := by
  simp only [isWordStart, Bool.and_eq_true] at h
  exact h.1

theorem digit_of_isWordStart (h : isWordStart c = true) : CharClass.digit.has c = false := by
  rw [Bool.eq_false_iff]
  intro hc
  obtain ⟨hascii, hdigit⟩ :=
    CharClass.forall_has (P := fun c => c.toNat < 128 ∧ c.isDigit = true) (by decide) hc
  simp [isWordStart, ascii_digit c hascii, hdigit] at h

end NameChars

/-! ## Names -/

def IsName [NameChars] (name : List Char) : Prop := splitName? name = some (name, [])

namespace IsName

open NameChars

variable [NameChars] {name text rest : List Char}

theorem of_splitName? (h : splitName? text = some (name, rest)) : IsName name := by
  cases text with
  | nil => cases h
  | cons c text =>
    simp only [splitName?] at h
    split at h
    · rename_i hc
      cases h
      have hword : ∀ d ∈ text.takeWhile NameChars.isWord, NameChars.isWord d = true := fun d hd =>
        List.mem_takeWhile_imp hd
      rw [IsName, splitName?, if_pos hc, List.takeWhile_eq_self_iff.2 hword,
        List.dropWhile_eq_nil_iff.2 hword]
    · cases h

theorem of_read (h : (Line.read text).name = some name) : IsName name := by
  simp only [Line.read, Line.assignment?] at h
  split at h
  · cases h
  · rename_i hsplit
    split at h
    · cases h
      exact of_splitName? hsplit
    · cases h

theorem of_readBinding [DigitLimit] {v : Decimal} (h : readBinding text = .ok (name, v)) : IsName name := by
  simp only [readBinding] at h
  split at h
  · rename_i value hsplit
    split at h
    · cases h
    · cases hv : (Literal.read value).mapError BindingError.value with
      | error e => simp [hv, bind, Except.bind] at h
      | ok d =>
        simp only [hv, bind, Except.bind, pure, Except.pure, Except.ok.injEq, Prod.mk.injEq] at h
        exact h.1 ▸ of_splitName? hsplit
  · cases h

/-- A name starts with a character that names may start with, and goes on with word characters. -/
theorem exists_cons (h : IsName name) :
    ∃ c more, name = c :: more ∧ isWordStart c = true ∧ ∀ d ∈ more, NameChars.isWord d = true := by
  cases name with
  | nil => cases h
  | cons c more =>
    simp only [IsName, splitName?] at h
    split at h
    · rename_i hc
      simp only [Option.some.injEq, Prod.mk.injEq, List.cons.injEq, true_and] at h
      exact ⟨c, more, rfl, hc, List.takeWhile_eq_self_iff.1 h.1⟩
    · cases h

theorem isWord (h : IsName name) : ∀ c ∈ name, NameChars.isWord c = true := by
  obtain ⟨c, more, rfl, hc, hmore⟩ := h.exists_cons
  exact List.forall_mem_cons.2 ⟨isWord_of_isWordStart hc, hmore⟩

/-- What is a name to a session is one to the lexer. -/
theorem exists_name (h : IsName name) : ∃ n : Lexer.Name, n.text = name := by
  obtain ⟨c, more, rfl, hc, -⟩ := h.exists_cons
  refine ⟨⟨c, more, digit_of_isWordStart hc, List.any_eq_false.2 fun d hd => ?_⟩, rfl⟩
  simp [isDelimiter_of_isWord (h.isWord d hd)]

/-- A line that consists of a name has no margins to lose. -/
theorem significant (h : IsName name) : Line.significant [name] = [name] := by
  have hstrip : strip name = name := Literal.trim_eq_self fun c hc => isMargin_of_isWord (h.isWord c hc)
  obtain ⟨c, more, rfl, -⟩ := h.exists_cons
  simp [Line.significant, hstrip]

/-- A line that consists of a name is an expression. -/
theorem read (h : IsName name) : Line.read name = ⟨none, name⟩ := by
  have hspace : name.dropWhile isSpace = name := by
    obtain ⟨c, more, rfl, -⟩ := h.exists_cons
    simp [isSpace_of_isWord (h.isWord c (by simp))]
  simp only [Line.read, Line.assignment?, hspace]
  rw [h]
  rfl

end IsName

/-! ## Names as expressions -/

namespace Expression

open Lexer

variable {V E : Type} [OfDecimal V] [Arithmetic V E] [DigitLimit]

/-- A variable by itself has the value that it is bound to. -/
theorem evaluate_variable {n : Name} (hn : n.function? = none) :
    ∃ x : Expression V, parse n.text = .ok x ∧ ∀ (bindings : List Char → Option V) (v : V),
      bindings n.text = some v → x.evaluate bindings = .ok v := by
  have hoperand : Roles.isOperand (Symbol.name n) = true := by simp [Roles.isOperand, hn]
  obtain ⟨x, hx, hvalue⟩ := parse_operand (V := V) hoperand trivial (.last (.name n))
  exact ⟨x, hx, fun bindings v hv => hvalue bindings v (step_name hn hv)⟩

/-- A function by itself lacks its operands. -/
theorem evaluate_function {n : Name} {op : Operation} (hn : n.function? = some op) :
    ∃ x : Expression V, parse n.text = .ok x ∧ ∀ bindings : List Char → Option V,
      x.evaluate bindings = .error (.underflow op.arity) := by
  have hcut : Cut true [.name n] (n.text ++ []) := .symbol (.name n) rfl .nil
  rw [List.append_nil] at hcut
  have hvalued : Symbol.valued (V := V) (.name n) = .spelled .function n.text := by
    simp [Symbol.valued, Symbol.token, hn]
  refine ⟨⟨some n.text, [.spelled .function n.text]⟩, ?_, fun bindings => ?_⟩
  · rw [parse_cut hcut (by simp [Symbol.Readable]), List.map_singleton, hvalued]
    rfl
  · have hop : function? (Token.spelled (V := V) .function n.text).text = some op := hn
    have hunderflow : Evaluation.apply op ([] : List V) = .error (.underflow op.arity) :=
      Evaluation.apply_underflow (by cases op <;> simp [Operation.arity])
    simp only [Expression.evaluate, Evaluation.evaluate, Evaluation.steps, Evaluation.step,
      Token.spelled] at hop ⊢
    simp only [hop, hunderflow, bind, Except.bind]

end Expression

namespace Session

open CommandLine

/-- The last one of the bindings given for a name counts. -/
theorem lookup_reverse_given {name : List Char} {v : Decimal} {given front back : List (List Char × Decimal)}
    (hgiven : given = front ++ (name, v) :: back) (hback : ∀ x ∈ back, x.1 ≠ name) :
    given.reverse.lookup name = some v := by
  have hnone : back.reverse.lookup name = none := by
    rw [List.lookup_eq_none_iff]
    intro x hx
    simpa using Ne.symm (hback x (List.mem_reverse.1 hx))
  rw [hgiven, List.reverse_append, List.reverse_cons, List.append_assoc, List.lookup_append, hnone]
  simp

section Names

variable [DigitLimit] [NameChars] {f : Format} {b b' : Bindings} {name text : List Char} {v : Decimal}

theorem valueOf_name (h : IsName name) (hfunction : function? name = none) (hv : b.lookup name = some v) :
    valueOf b name = .ok v := by
  obtain ⟨n, rfl⟩ := h.exists_name
  obtain ⟨x, hx, hvalue⟩ := Expression.evaluate_variable (V := Decimal) hfunction
  rw [valueOf_of_parse hx, hvalue _ v hv]
  rfl

theorem valueOf_function_name {op : Operation} (h : IsName name) (hfunction : function? name = some op)
    (b : Bindings) : valueOf b name = .error (.evaluation (.underflow op.arity)) := by
  obtain ⟨n, rfl⟩ := h.exists_name
  obtain ⟨x, hx, herror⟩ := Expression.evaluate_function (V := Decimal) hfunction
  rw [valueOf_of_parse hx, herror]
  rfl

/-- The line of a name that is bound has the value that is bound to it, and changes nothing. -/
theorem step_name (h : IsName name) (hfunction : function? name = none) (hv : b.lookup name = some v)
    (f : Format) : step f b name = (f v).map fun shown => (b, .ok ⟨v, shown⟩) := by
  have hvalue := valueOf_name h hfunction hv
  simp only [step, h.read, hvalue, bind]
  cases f v <;> rfl

/-- The line of a name is answered, if the value can be printed. -/
theorem run_name (h : IsName name) (hfunction : function? name = none) (hv : b.lookup name = some v)
    (precision : Nat) : run (format (some precision)) b [name] =
      match v.scientific precision with
      | .ok shown => ⟨b, [.ok ⟨v, shown⟩], none⟩
      | .error e => ⟨b, [], some (.unprintable e)⟩ := by
  have hformat : format (some precision) v = (v.scientific precision).mapError .unprintable := rfl
  rw [run, step_name h hfunction hv, hformat]
  cases v.scientific precision <;> rfl

/-- A line that is answered with a value is answered with the text that the value is printed as. -/
theorem format_of_step {precision : Nat} {shown : List Char}
    (h : step (format (some precision)) b text = .ok (b', .ok ⟨v, shown⟩)) :
    format (some precision) v = .ok shown := by
  rcases step_cases precision b text with ⟨v', shown', -, hshown, hstep⟩ | ⟨e, -, hstep⟩ | ⟨e, -, hstep⟩
  · cases hstep.symm.trans h
    simp only [format, hshown, Except.mapError]
  · cases hstep.symm.trans h
  · cases hstep.symm.trans h

/-! ## What is bound to a name -/

/-- The value that a line assigns to the name, given its reply. -/
def assigned? (name : List Char) (x : List Char × Reply) : Option Decimal :=
  if (Line.read x.1).name = some name then x.2.toOption.map (·.value) else none

/-- What a line that is answered leaves bound to a name. -/
theorem lookup_step {precision : Nat} {reply : Reply}
    (h : step (format (some precision)) b text = .ok (b', reply)) (name : List Char) :
    b'.lookup name = (assigned? name (text, reply)).or (b.lookup name) := by
  rcases step_cases precision b text with ⟨v, shown, -, -, hstep⟩ | ⟨e, -, hstep⟩ | ⟨e, -, hstep⟩
  · obtain ⟨rfl, rfl⟩ := Prod.mk.inj (Except.ok.inj (hstep.symm.trans h))
    rw [bind]
    cases hname : (Line.read text).name with
    | none => simp [assigned?, hname]
    | some written =>
      by_cases hsame : written = name
      · simp [assigned?, hname, hsame, Except.toOption]
      · have hne : (name == written) = false := by simpa using Ne.symm hsame
        simp [assigned?, hname, hsame, List.lookup_cons, hne]
  · obtain ⟨rfl, rfl⟩ := Prod.mk.inj (Except.ok.inj (hstep.symm.trans h))
    simp [assigned?, Except.toOption]
  · rw [hstep] at h
    cases h

/-- The value of a name is the one last assigned to it, and the one it had at first if none was. -/
theorem lookup_run (precision : Nat) (name : List Char) : ∀ (texts : List (List Char)) (b : Bindings),
    (run (format (some precision)) b texts).bindings.lookup name =
      ((transcript (format (some precision)) b texts).reverse.findSome? (assigned? name)).or (b.lookup name)
  | [], b => rfl
  | text :: texts, b => by
    cases hstep : step (format (some precision)) b text with
    | error e => rw [run_of_step_error hstep, transcript_of_step_error hstep]; rfl
    | ok p =>
      rw [run_of_step hstep, transcript_of_step hstep, List.reverse_cons, List.findSome?_append,
        List.findSome?_singleton, Option.or_assoc, ← lookup_step hstep]
      exact lookup_run precision name texts p.1

/-- A name keeps its value where no line assigns to it. -/
theorem lookup_run_of_kept {precision : Nat} {texts : List (List Char)}
    (h : ∀ x ∈ transcript (format (some precision)) b texts, assigned? name x = none) :
    (run (format (some precision)) b texts).bindings.lookup name = b.lookup name := by
  have hnone : (transcript (format (some precision)) b texts).reverse.findSome? (assigned? name) = none :=
    List.findSome?_eq_none_iff.2 fun x hx => h x (List.mem_reverse.1 hx)
  rw [lookup_run, hnone, Option.none_or]

/-- The line of a name gets the reply of the line before, if that one assigns to the name. -/
theorem run_written {precision : Nat} {shown : List Char} (hname : (Line.read text).name = some name)
    (hfunction : function? name = none)
    (h : step (format (some precision)) b text = .ok (b', .ok ⟨v, shown⟩)) :
    run (format (some precision)) b [text, name] = ⟨b', [.ok ⟨v, shown⟩, .ok ⟨v, shown⟩], none⟩ := by
  have hlookup : b'.lookup name = some v := by
    rw [lookup_step h]
    simp [assigned?, hname, Except.toOption]
  have hagain : step (format (some precision)) b' name = .ok (b', .ok ⟨v, shown⟩) := by
    rw [step_name (IsName.of_read hname) hfunction hlookup, format_of_step h]
    rfl
  rw [run_of_step h, run_of_step hagain]
  rfl

end Names

/-! ## Reading back -/

section Reading

variable [DigitLimit] [NameChars]

/-- **Read after write.** Take a name that names no function. After a line that assigns a value to it and is
answered, whatever was bound before, the line of the name alone has just this value, prints the same text, and
changes nothing. So it does, too, after lines that assign nothing to the name, with the value of the last binding
that was given for it; but where this value has too many digits to be printed, the session is broken off. -/
theorem read_after_write {name : List Char} (hfunction : function? name = none) (v : Decimal)
    (verbose : Bool) (precision : Nat) :
    (∀ (b b' : Bindings) (line shown : List Char), (Line.read (strip line)).name = some name →
      step (format (some precision)) b (strip line) = .ok (b', .ok ⟨v, shown⟩) →
        let reply : Reply := .ok ⟨v, shown⟩
        run (format (some precision)) b (Line.significant [line, name]) = ⟨b', [reply, reply], none⟩ ∧
        evaluateAll verbose (some precision) b (Line.significant [line, name]) =
          ⟨printed verbose (strip line, reply) ++ printed verbose (name, reply), none⟩) ∧
    ∀ (text : List Char) (given front back : List (List Char × Decimal)) (lines : List (List Char)),
      readBinding text = .ok (name, v) → given = front ++ (name, v) :: back →
      (∀ x ∈ back, x.1 ≠ name) →
      (∀ x ∈ transcript (format (some precision)) given.reverse (Line.significant lines),
        assigned? name x = none) →
        (run (format (some precision)) given.reverse (Line.significant (lines ++ [name])) =
          (run (format (some precision)) given.reverse (Line.significant lines)).followedBy fun b =>
            match v.scientific precision with
            | .ok shown => ⟨b, [.ok ⟨v, shown⟩], none⟩
            | .error e => ⟨b, [], some (.unprintable e)⟩) ∧
        ∀ outputs shown, perform (evaluation verbose precision given) lines = ⟨outputs, none⟩ →
          v.scientific precision = .ok shown →
            perform (evaluation verbose precision given) (lines ++ [name]) =
              ⟨outputs ++ printed verbose (name, .ok ⟨v, shown⟩), none⟩ := by
  refine ⟨fun b b' line shown hname hstep => ?_, fun text given front back lines hread hgiven hback hkept => ?_⟩
  · have hline : strip line ≠ [] := by
      intro hnil
      rw [hnil] at hname
      cases hname
    have htexts : Line.significant [line, name] = [strip line, name] := by
      rw [significant_cons hline, (IsName.of_read hname).significant]
    have hrun := run_written hname hfunction hstep
    rw [htexts, evaluateAll_eq, hrun]
    exact ⟨rfl, by simp [transcript, hrun, announced]⟩
  · have hisName := IsName.of_readBinding hread
    have htexts : Line.significant (lines ++ [name]) = Line.significant lines ++ [name] := by
      rw [significant_append, hisName.significant]
    have hlookup := (lookup_run_of_kept hkept).trans (lookup_reverse_given hgiven hback)
    have hname := run_name hisName hfunction hlookup precision
    refine ⟨?_, fun outputs shown hlines hshown => ?_⟩
    · rw [htexts, run_append]
      exact Course.followedBy_congr hname
    · rw [perform_eq_done_iff] at hlines ⊢
      obtain ⟨hdone, rfl⟩ := hlines
      rw [htexts, run_append, Course.followedBy_of_done hdone, transcript_append _ hdone]
      simp [transcript, hname, hshown]

end Reading

/-- `é٢ = 1 / 4`, over an older value of `é٢`, and `é٢=25e-2` given after another binding of it. -/
theorem read_after_write_unicode :
    let _ : DigitLimit := .standard
    let _ : NameChars := .unicode17
    let name := ['é', '٢']
    let line := [' ', 'é', '٢', ' ', '=', ' ', '1', '/', '4', '\t']
    let older : Bindings := [(name, ⟨7, 0⟩)]
    let given : List (List Char × Decimal) := [(name, ⟨7, 0⟩), (name, ⟨25, 2⟩)]
    let shown := Output.result "2,50e-1"
    evaluateAll false (some 2) older (Line.significant [line, name]) = ⟨[shown, shown], none⟩ ∧
      perform (evaluation false 2 given) [['x', '=', '1'], name] = ⟨[.result "1,00", shown], none⟩ := by
  intro limit chars name line older given shown
  have hfunction : function? name = none := rfl
  have hvalue : step (format (some 2)) older (strip line) =
      .ok ((name, ⟨25 * 10 ^ 18, 20⟩) :: older, .ok ⟨⟨25 * 10 ^ 18, 20⟩, "2,50e-1".toList⟩) := by
    decide +kernel
  have hwritten := (read_after_write hfunction ⟨25 * 10 ^ 18, 20⟩ false 2).1 older _ line _
    (by decide +kernel) hvalue
  have hread : readBinding (name ++ ['=', '2', '5', 'e', '-', '2']) = .ok (name, ⟨25, 2⟩) := by
    decide +kernel
  have hgiven := (read_after_write hfunction ⟨25, 2⟩ false 2).2 _ given [(name, ⟨7, 0⟩)] []
    [['x', '=', '1']] hread rfl (by simp) (by decide +kernel)
  have hlines : perform (evaluation false 2 given) [['x', '=', '1']] = ⟨[.result "1,00"], none⟩ := by
    decide +kernel
  have hall := hgiven.2 _ "2,50e-1".toList hlines (by decide +kernel)
  exact ⟨hwritten.2.trans (by decide +kernel), hall.trans (by decide +kernel)⟩

/-- `max = 5` assigns 5 to `max`, but the line `max` calls the function, without its arguments. So does
it after the binding `max=5` was given. -/
theorem function_name_hides_value :
    let _ : DigitLimit := .standard
    let _ : NameChars := .unicode17
    let name := ['m', 'a', 'x']
    let line := ['m', 'a', 'x', ' ', '=', ' ', '5']
    let five : Result := ⟨⟨5, 0⟩, ['5', ',', '0', '0']⟩
    let step := step (format (some 2))
    IsName name ∧ (Line.read line).name = some name ∧ step [] line = .ok ([(name, five.value)], .ok five) ∧
      readBinding ['m', 'a', 'x', '=', '5'] = .ok (name, five.value) ∧
      step [(name, five.value)] name = .ok ([(name, five.value)], .error (.evaluation (.underflow 2))) ∧
      ¬ ∀ (b b' : Bindings) (line name : List Char) (r : Result), (Line.read line).name = some name →
        step b line = .ok (b', .ok r) → step b' name = .ok (b', .ok r) := by
  intro limit chars name line five step
  have hname : IsName name := by
    unfold IsName
    decide +kernel
  have hassigned : (Line.read line).name = some name := by decide +kernel
  have hwrite : step [] line = .ok ([(name, five.value)], .ok five) := by decide +kernel
  have hread : step [(name, five.value)] name =
      .ok ([(name, five.value)], .error (.evaluation (.underflow 2))) := by
    have hfunction : function? name = some (.binary .max) := rfl
    have hvalue := valueOf_function_name hname hfunction [(name, five.value)]
    simp only [step, Session.step, hname.read, hvalue]
    rfl
  refine ⟨hname, hassigned, hwrite, by decide +kernel, hread, fun h => ?_⟩
  have hvalue := h [] _ line name five hassigned hwrite
  rw [hread] at hvalue
  cases hvalue

end Session

end Reckoner
