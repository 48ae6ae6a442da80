import TypeStub.Proofs.TypeExpr.Token
import TypeStub.Proofs.TypeExpr.Value

/-!
Contract: the lexemes of value expressions, and the text that they stand for.

Owns:
- `Lexeme.IsGenuine`, the lexemes that a text can have;
- `Value.Takes`, what one step takes from a text, by the kind of lexeme;
- what `Value.lex` keeps of a text: all of its characters, in order;
- that a mark behind a text changes nothing about the lexemes before it (`lex_append`).
-/

namespace TypeStub

open Malformed (Reason)

/-- A lexeme that some text has. -/
def Lexeme.IsGenuine : Lexeme → Prop
  | .identifier text =>
      text.all Value.isIdentifierPart = true ∧
        (text.head?.any fun c => c.isAlpha || c == '_') = true
  | .literal text =>
      TypeExpr.isNumber text = true ∨ text = TypeExpr.ellipsis ∨
        ∃ quote body, (quote = '\'' ∨ quote = '"') ∧ text = quote :: (body ++ [quote]) ∧
          ∀ c ∈ body, c ≠ quote
  | .mark _ => True

namespace Value

/-! ## One step -/

@[simp] theorem lex_nil : lex [] = .ok [] := by
  rw [lex]

theorem lex_cons_of_ok {c : Char} {rest after : List Char} {first : Lexeme}
    (step : lexeme c rest = .ok (first, after)) :
    lex (c :: rest) = (lex after).map (first :: ·) := by
  rw [lex]
  split
  · rename_i reason failed
    rw [step] at failed
    cases failed
  · rename_i found later taken
    rw [step] at taken
    cases taken
    cases lex after <;> rfl

theorem lex_cons_of_error {c : Char} {rest : List Char} {reason : Reason}
    (step : lexeme c rest = .error reason) : lex (c :: rest) = .error reason := by
  rw [lex]
  split
  · rename_i other failed
    rw [step] at failed
    cases failed
    rfl
  · rename_i found later taken
    rw [step] at taken
    cases taken

/-- A text that has lexemes has a first one, unless it is empty. -/
theorem exists_step_of_lex {c : Char} {rest : List Char} {lexemes : List Lexeme}
    (accepted : lex (c :: rest) = .ok lexemes) :
    ∃ first after later, lexeme c rest = .ok (first, after) ∧ lex after = .ok later ∧
      lexemes = first :: later := by
  cases step : lexeme c rest with
  | error reason =>
      rw [lex_cons_of_error step] at accepted
      cases accepted
  | ok taken =>
      obtain ⟨first, after⟩ := taken
      rw [lex_cons_of_ok step] at accepted
      cases remaining : lex after with
      | error reason =>
          rw [remaining] at accepted
          cases accepted
      | ok later =>
          rw [remaining] at accepted
          cases accepted
          exact ⟨first, after, later, rfl, remaining, rfl⟩

/-- The first character of an identifier. -/
def startsIdentifier (c : Char) : Bool :=
  c.isAlpha || c == '_'

/-- The lexeme `first` is taken from the text `c :: rest`, so that `after` remains. -/
inductive Takes : (c : Char) → (rest : List Char) → (first : Lexeme) → (after : List Char) → Prop
  | mark {c : Char} {rest : List Char} (mark : Mark) (same : (Lexeme.mark mark).text = [c]) :
      Takes c rest (.mark mark) rest
  | ellipsis {rest : List Char} (dots : rest.take 2 = ['.', '.']) :
      Takes '.' rest (.literal ['.', '.', '.']) (rest.drop 2)
  | quoted {c : Char} {rest after : List Char} {quote : Char} (opens : c = '\'' ∨ c = '"')
      (closes : rest.dropWhile (· != c) = quote :: after) :
      Takes c rest (.literal (c :: (rest.takeWhile (· != c) ++ [quote]))) after
  | number {c : Char} {rest : List Char} (digit : c.isDigit = true) :
      Takes c rest (.literal (c :: rest.takeWhile isNumberPart)) (rest.dropWhile isNumberPart)
  | identifier {c : Char} {rest : List Char} (start : startsIdentifier c = true) :
      Takes c rest (.identifier (c :: (identifierRun rest).1)) (identifierRun rest).2

private theorem takes_of_lexeme {c : Char} {rest after : List Char} {first : Lexeme}
    (step : lexeme c rest = .ok (first, after)) : Takes c rest first after := by
  unfold lexeme at step
  split at step
  · rename_i isMark
    cases step
    exact .mark .openBracket (by rw [isMark]; rfl)
  split at step
  · rename_i isMark
    cases step
    exact .mark .closeBracket (by rw [isMark]; rfl)
  split at step
  · rename_i isMark
    cases step
    exact .mark .comma (by rw [isMark]; rfl)
  split at step
  · rename_i dots
    obtain ⟨rfl, dots⟩ := dots
    cases step
    exact .ellipsis dots
  split at step
  · rename_i opens
    split at step
    · cases step
    · rename_i quote remaining closes
      cases step
      exact .quoted opens closes
  split at step
  · rename_i digit
    cases step
    exact .number digit
  split at step
  · rename_i start
    cases step
    exact .identifier start
  · cases step

private theorem ne_of_class {p : Char → Bool} {c d : Char} (inside : p c = true)
    (outside : p d = false) : c ≠ d := by
  rintro rfl
  rw [inside] at outside
  cases outside

private theorem not_isDigit_of_start {c : Char} (start : startsIdentifier c = true) :
    c.isDigit = false := by
  rw [startsIdentifier, Bool.or_eq_true, beq_iff_eq] at start
  rcases start with letter | rfl
  · exact Token.not_isDigit_of_isAlpha letter
  · decide

private theorem lexeme_of_takes {c : Char} {rest after : List Char} {first : Lexeme}
    (taken : Takes c rest first after) : lexeme c rest = .ok (first, after) := by
  cases taken with
  | mark mark same => cases mark <;> cases same <;> simp [lexeme]
  | ellipsis dots => simp [lexeme, dots]
  | quoted opens closes =>
      rcases opens with rfl | rfl
      · simp [lexeme, closes]
      · simp [lexeme, closes]
  | number digit =>
      unfold lexeme
      rw [if_neg (ne_of_class digit (by decide)), if_neg (ne_of_class digit (by decide)),
        if_neg (ne_of_class digit (by decide)),
        if_neg (fun dots => ne_of_class digit (by decide) dots.1),
        if_neg (not_or_intro (ne_of_class digit (by decide)) (ne_of_class digit (by decide))),
        if_pos digit]
  | identifier start =>
      unfold lexeme
      rw [if_neg (ne_of_class start (by decide)), if_neg (ne_of_class start (by decide)),
        if_neg (ne_of_class start (by decide)),
        if_neg (fun dots => ne_of_class start (by decide) dots.1),
        if_neg (not_or_intro (ne_of_class start (by decide)) (ne_of_class start (by decide))),
        if_neg (by simp [not_isDigit_of_start start]),
        if_pos (show (c.isAlpha || c == '_') = true from start)]

/-- What a step takes from a text. -/
theorem lexeme_eq_ok_iff {c : Char} {rest after : List Char} {first : Lexeme} :
    lexeme c rest = .ok (first, after) ↔ Takes c rest first after :=
  ⟨takes_of_lexeme, lexeme_of_takes⟩

theorem identifierRun_append (text : List Char) :
    (identifierRun text).1 ++ (identifierRun text).2 = text := by
  fun_induction identifierRun text with
  | case1 => rfl
  | case2 => rfl
  | case3 c rest _ _ run inductionHypothesis =>
      rw [List.cons_append, inductionHypothesis]
  | case4 => rfl

theorem identifierRun_all (text : List Char) :
    (identifierRun text).1.all isIdentifierPart = true := by
  fun_induction identifierRun text with
  | case1 => rfl
  | case2 => rfl
  | case3 c rest _ part run inductionHypothesis =>
      rw [List.all_cons, part, inductionHypothesis]
      rfl
  | case4 => rfl

theorem isIdentifierPart_of_start {c : Char} (start : startsIdentifier c = true) :
    isIdentifierPart c = true := by
  rw [startsIdentifier, Bool.or_eq_true] at start
  rcases start with letter | underscore
  · simp [isIdentifierPart, Char.isAlphanum, letter]
  · simp [isIdentifierPart, underscore]

/-- A lexeme stands for the characters that it takes from the text. -/
theorem Takes.text_append {c : Char} {rest after : List Char} {first : Lexeme}
    (taken : Takes c rest first after) : first.text ++ after = c :: rest := by
  cases taken with
  | mark mark same =>
      rw [same]
      rfl
  | ellipsis dots =>
      have restored := List.take_append_drop 2 rest
      rw [dots] at restored
      exact congrArg ('.' :: ·) restored
  | quoted opens closes =>
      have restored := List.takeWhile_append_dropWhile (p := (· != c)) (l := rest)
      rw [closes] at restored
      simpa [Lexeme.text] using restored
  | number digit => exact congrArg (c :: ·) List.takeWhile_append_dropWhile
  | identifier start => exact congrArg (c :: ·) (identifierRun_append rest)

theorem Takes.isGenuine {c : Char} {rest after : List Char} {first : Lexeme}
    (taken : Takes c rest first after) : first.IsGenuine := by
  cases taken with
  | mark mark same => trivial
  | ellipsis dots => exact .inr (.inl rfl)
  | @quoted _ _ _ quote opens closes =>
      have isQuote : quote = c := by
        have stopped := List.head?_dropWhile_not (· != c) rest
        rw [closes] at stopped
        simpa using stopped
      subst isQuote
      refine .inr (.inr ⟨quote, rest.takeWhile (· != quote), opens, rfl, ?_⟩)
      intro d member
      simpa using List.all_eq_true.mp List.all_takeWhile d member
  | number digit =>
      refine .inl ?_
      rw [TypeExpr.isNumber, digit, Bool.true_and]
      exact List.all_takeWhile
  | identifier start =>
      refine ⟨?_, start⟩
      rw [List.all_cons, isIdentifierPart_of_start start, identifierRun_all]
      rfl

/-- The lexemes of a text stand for the text. -/
theorem text_of_lex {input : List Char} {lexemes : List Lexeme}
    (accepted : lex input = .ok lexemes) :
    lexemes.flatMap Lexeme.text = input ∧ ∀ lexeme ∈ lexemes, lexeme.IsGenuine := by
  induction h : input.length using Nat.strongRecOn generalizing input lexemes with
  | ind size inductionHypothesis =>
      cases input with
      | nil =>
          rw [lex_nil] at accepted
          cases accepted
          exact ⟨rfl, by simp⟩
      | cons c rest =>
          obtain ⟨first, after, later, step, remaining, rfl⟩ := exists_step_of_lex accepted
          have smaller : after.length < size := by
            have bound := length_lexeme_le step
            rw [List.length_cons] at h
            omega
          obtain ⟨restored, genuine⟩ := inductionHypothesis after.length smaller remaining rfl
          have taken := lexeme_eq_ok_iff.mp step
          refine ⟨by rw [List.flatMap_cons, restored, taken.text_append], ?_⟩
          intro lexeme member
          rcases List.mem_cons.mp member with rfl | member
          · exact taken.isGenuine
          · exact genuine lexeme member

/-! ## A mark behind a text -/

/-- Nothing follows, or what follows begins with the character of a mark. Neither can
lengthen a lexeme. -/
def EndsLexeme : List Char → Prop
  | [] => True
  | c :: _ => c = '[' ∨ c = ']' ∨ c = ','

theorem EndsLexeme.not_part {c : Char} {rest : List Char} (ends : EndsLexeme (c :: rest)) :
    isNumberPart c = false ∧ isIdentifierPart c = false ∧ c ≠ '.' := by
  rcases ends with rfl | rfl | rfl <;> decide

private theorem takeWhile_append {p : Char → Bool} {front : List Char}
    (stops : ∀ c ∈ front, p c = true) {back : List Char}
    (ends : ∀ c rest, back = c :: rest → p c = false) :
    (front ++ back).takeWhile p = front ∧ (front ++ back).dropWhile p = back := by
  induction front with
  | nil =>
      cases back with
      | nil => exact ⟨rfl, rfl⟩
      | cons c rest => simp [ends c rest rfl]
  | cons c rest inductionHypothesis =>
      have later := inductionHypothesis fun d member => stops d (List.mem_cons_of_mem c member)
      simp [stops c List.mem_cons_self, later]

/-- A run that stops inside a text, or at its end before a mark, stops there in front of
whatever follows. -/
private theorem span_append {p : Char → Bool} (text back : List Char)
    (ends : ∀ c rest, back = c :: rest → p c = false) :
    (text ++ back).takeWhile p = text.takeWhile p ∧
      (text ++ back).dropWhile p = text.dropWhile p ++ back := by
  induction text with
  | nil => exact takeWhile_append (by simp) ends
  | cons c rest inductionHypothesis =>
      by_cases inRun : p c = true
      · simpa [inRun] using inductionHypothesis
      · simp [inRun]

private theorem identifierRun_append_mark (text : List Char) {back : List Char}
    (ends : EndsLexeme back) :
    identifierRun (text ++ back) = ((identifierRun text).1, (identifierRun text).2 ++ back) := by
  fun_induction identifierRun text with
  | case1 =>
      cases back with
      | nil => rfl
      | cons c rest =>
          rw [List.nil_append, identifierRun, if_neg (by simp [ends.not_part])]
          intro later isDot
          exact absurd isDot ends.not_part.2.2
  | case2 => rfl
  | case3 c rest notPair part run inductionHypothesis =>
      rw [List.cons_append, identifierRun, if_pos part, inductionHypothesis]
      rintro later rfl pair
      cases rest with
      | nil =>
          cases back with
          | nil => cases pair
          | cons d others =>
              simp only [List.nil_append, List.cons.injEq] at pair
              exact ends.not_part.2.2 pair.1
      | cons d others =>
          simp only [List.cons_append, List.cons.injEq] at pair
          exact notPair others rfl (by rw [pair.1])
  | case4 c rest notPair notPart =>
      rw [List.cons_append, identifierRun, if_neg notPart]
      rintro later rfl
      exact absurd rfl notPart

private theorem dropWhile_append_of_cons {p : Char → Bool} {text : List Char} {quote : Char}
    {after : List Char} (stopped : text.dropWhile p = quote :: after) (back : List Char) :
    (text ++ back).takeWhile p = text.takeWhile p ∧
      (text ++ back).dropWhile p = quote :: (after ++ back) := by
  induction text with
  | nil => cases stopped
  | cons c rest inductionHypothesis =>
      by_cases inRun : p c = true
      · rw [List.dropWhile_cons_of_pos inRun] at stopped
        simpa [inRun] using inductionHypothesis stopped
      · rw [List.dropWhile_cons_of_neg inRun] at stopped
        simpa [inRun] using congrArg (· ++ back) stopped

/-- A lexeme before a mark is the same with the mark behind it. -/
theorem Takes.append {c : Char} {rest after back : List Char} {first : Lexeme}
    (taken : Takes c rest first after) (ends : EndsLexeme back) :
    Takes c (rest ++ back) first (after ++ back) := by
  cases taken with
  | mark mark same => exact .mark mark same
  | ellipsis dots =>
      have long : 2 ≤ rest.length := by
        have counted := congrArg List.length dots
        rw [List.length_take] at counted
        simp only [List.length_cons, List.length_nil] at counted
        omega
      rw [← List.drop_append_of_le_length long]
      exact .ellipsis (by rw [List.take_append_of_le_length long, dots])
  | quoted opens closes =>
      obtain ⟨body, left⟩ := dropWhile_append_of_cons closes back
      rw [← body]
      exact .quoted opens left
  | number digit =>
      have stops : ∀ d later, back = d :: later → isNumberPart d = false := by
        rintro d later rfl
        exact ends.not_part.1
      obtain ⟨digits, left⟩ := span_append rest back stops
      rw [← digits, ← left]
      exact .number digit
  | identifier start =>
      have run := identifierRun_append_mark rest ends
      have longer := @Takes.identifier c (rest ++ back) start
      rw [run] at longer
      exact longer

/-- The lexemes before a mark are read by themselves. -/
theorem lex_append {input back : List Char} {lexemes : List Lexeme}
    (accepted : lex input = .ok lexemes) (ends : EndsLexeme back) :
    lex (input ++ back) = (lex back).map (lexemes ++ ·) := by
  induction h : input.length using Nat.strongRecOn generalizing input lexemes with
  | ind size inductionHypothesis =>
      cases input with
      | nil =>
          rw [lex_nil] at accepted
          cases accepted
          rw [List.nil_append]
          cases lex back <;> rfl
      | cons c rest =>
          obtain ⟨first, after, later, step, remaining, rfl⟩ := exists_step_of_lex accepted
          have smaller : after.length < size := by
            have bound := length_lexeme_le step
            rw [List.length_cons] at h
            omega
          have longer := lexeme_eq_ok_iff.mpr ((lexeme_eq_ok_iff.mp step).append ends)
          rw [List.cons_append, lex_cons_of_ok longer,
            inductionHypothesis after.length smaller remaining rfl]
          cases lex back <;> rfl

theorem lex_of_takes {c : Char} {rest : List Char} {only : Lexeme} (taken : Takes c rest only []) :
    lex (c :: rest) = .ok [only] := by
  rw [lex_cons_of_ok (lexeme_eq_ok_iff.mpr taken), lex_nil]
  rfl

theorem lex_mark_cons (mark : Mark) (rest : List Char) :
    lex ((Lexeme.mark mark).text ++ rest) = (lex rest).map (.mark mark :: ·) := by
  cases mark with
  | openBracket => exact lex_cons_of_ok (by simp [lexeme])
  | closeBracket => exact lex_cons_of_ok (by simp [lexeme])
  | comma => exact lex_cons_of_ok (by simp [lexeme])

theorem endsLexeme_mark (mark : Mark) (rest : List Char) :
    EndsLexeme ((Lexeme.mark mark).text ++ rest) := by
  cases mark with
  | openBracket => exact .inl rfl
  | closeBracket => exact .inr (.inl rfl)
  | comma => exact .inr (.inr rfl)

/-- Texts with a mark between them have the lexemes of both. -/
theorem lex_append_mark {front back : List Char} {left right : List Lexeme}
    (ofFront : lex front = .ok left) (mark : Mark) (ofBack : lex back = .ok right) :
    lex (front ++ ((Lexeme.mark mark).text ++ back)) = .ok (left ++ .mark mark :: right) := by
  rw [lex_append ofFront (endsLexeme_mark mark back), lex_mark_cons, ofBack]
  rfl

/-- A comma behind a complete value expression does not belong to it. -/
theorem parse_append_comma {front : List Char} {found : Resolved TypeExpr}
    (accepted : parse front = .ok found) (back : List Char) (other : Resolved TypeExpr) :
    parse (front ++ ',' :: back) ≠ .ok other := by
  intro longer
  unfold parse at accepted longer
  cases ofFront : lex front with
  | error reason =>
      rw [ofFront] at accepted
      cases accepted
  | ok left =>
      rw [ofFront] at accepted
      have spelled := (read_eq_ok_iff.mp accepted).1
      have divided : lex (front ++ ',' :: back) =
          ((lex back).map (.mark .comma :: ·)).map (left ++ ·) := by
        rw [← lex_mark_cons .comma back]
        exact lex_append ofFront (endsLexeme_mark .comma back)
      rw [divided] at longer
      cases ofBack : lex back with
      | error reason =>
          rw [ofBack] at longer
          cases longer
      | ok right =>
          rw [ofBack] at longer
          change operand [] ∅ (left ++ .mark .comma :: right) = .ok other at longer
          rw [operand_append spelled] at longer
          cases right with
          | nil => cases longer
          | cons next later =>
              cases next with
              | identifier text => cases longer
              | literal text => cases longer
              | mark mark => cases mark <;> cases longer

end Value

end TypeStub
