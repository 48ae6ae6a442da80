import Mathlib.Data.List.TakeWhile
import TypeStub.Proofs.Text.Intercalate
import TypeStub.Proofs.TypeExpr.Lexeme
import TypeStub.Proofs.TypeExpr.Token
import TypeStub.TypeExpr.Printer

/-!
Contract: how value expressions are spelled without white space.

Owns:
- `TypeExpr.lexemes` and `TypeExpr.inlineText`, the canonical spelling of a value expression;
- that a value expression reads back from it;
- its tokens: where it has a bar, an atom has one.

Does not own: types with parentheses and bars (`TypeStub.Proofs.TypeExpr.Printer`).
-/

namespace TypeStub

open Malformed (Reason)

/-! ## Atoms -/

namespace Value

private theorem splitOn_dot_cons {c : Char} (notDot : c ≠ '.') (rest : List Char) :
    (c :: rest).splitOn '.' = (rest.splitOn '.').modifyHead (c :: ·) := by
  simp [List.splitOn_cons_eq_if_modifyHead, notDot]

private theorem splitOn_dot (rest : List Char) :
    ('.' :: rest).splitOn '.' = [] :: rest.splitOn '.' := by
  simp [List.splitOn_cons_eq_if_modifyHead]

private theorem splitOn_tail_cons {c : Char} (notDot : c ≠ '.') (rest : List Char) :
    ((c :: rest).splitOn '.').tail = (rest.splitOn '.').tail := by
  rw [splitOn_dot_cons notDot]
  cases rest.splitOn '.' <;> rfl

/-- An identifier runs through a text whose later segments are not empty. -/
private theorem identifierRun_of_segments {text : List Char}
    (parts : text.all isIdentifierPart = true)
    (segments : ∀ segment ∈ (text.splitOn '.').tail, segment ≠ []) :
    identifierRun text = (text, []) := by
  fun_induction identifierRun text with
  | case1 => rfl
  | case2 rest =>
      refine absurd rfl (segments [] ?_)
      rw [splitOn_dot, splitOn_dot]
      exact List.mem_cons_self
  | case3 c rest notPair part run inductionHypothesis =>
      rw [List.all_cons, part, Bool.true_and] at parts
      have later : ∀ segment ∈ (rest.splitOn '.').tail, segment ≠ [] := by
        intro segment member
        by_cases isDot : c = '.'
        · rw [isDot, splitOn_dot] at segments
          exact segments segment (List.mem_of_mem_tail member)
        · rw [splitOn_tail_cons isDot] at segments
          exact segments segment member
      have ofRest := inductionHypothesis parts later
      rw [show run = (rest, []) from ofRest]
  | case4 c rest notPair notPart =>
      rw [List.all_cons, Bool.and_eq_true] at parts
      exact absurd parts.1 notPart

/-- A dotted name is one identifier. -/
theorem lex_of_isDottedName {path : List Char} (dotted : TypeExpr.isDottedName path = true) :
    lex path = .ok [.identifier path] := by
  simp only [TypeExpr.isDottedName, Bool.and_eq_true] at dotted
  obtain ⟨⟨complete, parts⟩, start⟩ := dotted
  cases path with
  | nil => cases start
  | cons c rest =>
      rw [List.head?_cons, Option.any_some] at start
      have notDot : c ≠ '.' := by
        rintro rfl
        exact absurd start (by decide)
      rw [List.all_cons, Bool.and_eq_true] at parts
      have segments : ∀ segment ∈ (rest.splitOn '.').tail, segment ≠ [] := by
        intro segment member
        rw [← splitOn_tail_cons notDot] at member
        have nonempty := List.all_eq_true.mp complete segment (List.mem_of_mem_tail member)
        simpa using nonempty
      have taken := @Takes.identifier c rest start
      rw [identifierRun_of_segments parts.2 segments] at taken
      exact lex_of_takes taken

/-- A number is one literal. -/
theorem lex_of_isNumber {text : List Char} (number : TypeExpr.isNumber text = true) :
    lex text = .ok [.literal text] := by
  cases text with
  | nil => cases number
  | cons c rest =>
      rw [TypeExpr.isNumber, Bool.and_eq_true] at number
      obtain ⟨digit, parts⟩ := number
      have taken := @Takes.number c rest digit
      rw [List.takeWhile_eq_self_iff.mpr (List.all_eq_true.mp parts),
        List.dropWhile_eq_nil_iff.mpr (List.all_eq_true.mp parts)] at taken
      exact lex_of_takes taken

/-- A quoted text is one literal. -/
theorem lex_of_isQuoted {text : List Char} (quoted : TypeExpr.IsQuoted text) :
    lex text = .ok [.literal text] := by
  obtain ⟨quote, body, isQuote, rfl, ofBody⟩ := quoted
  have runs : ∀ d ∈ body, (d != quote) = true := by
    intro d member
    simpa using (ofBody d member).1
  have inside : (body ++ [quote]).takeWhile (· != quote) = body := by
    rw [List.takeWhile_append_of_pos runs]
    simp
  have left : (body ++ [quote]).dropWhile (· != quote) = [quote] := by
    rw [List.dropWhile_append_of_pos runs]
    simp
  have taken := Takes.quoted isQuote left
  rw [inside] at taken
  exact lex_of_takes taken

theorem lex_ellipsis : lex TypeExpr.ellipsis = .ok [.literal TypeExpr.ellipsis] :=
  lex_of_takes (.ellipsis rfl)

end Value

/-! ## Value expressions -/

namespace TypeExpr

open Value (joinLexemes)

mutual

/-- The lexemes that spell a value expression, without a comma behind the last argument. -/
def lexemes : TypeExpr → List Lexeme
  | .name path => [.identifier path.toList]
  | .literal text => [.literal text.toList]
  | .generic _ _ => []
  | .union _ => []
  | .subscript base arguments =>
      lexemes base ++ .mark .openBracket ::
        (joinLexemes (lexemesOfAll arguments) ++ [.mark .closeBracket])

/-- The lexemes that spell each of the value expressions. -/
def lexemesOfAll : List TypeExpr → List (List Lexeme)
  | [] => []
  | head :: tail => lexemes head :: lexemesOfAll tail

end

theorem lexemesOfAll_eq_map (types : List TypeExpr) : lexemesOfAll types = types.map lexemes := by
  induction types with
  | nil => rfl
  | cons head tail inductionHypothesis => simp [lexemesOfAll, inductionHypothesis]

/-- The text of a value expression without white space. -/
def inlineText (e : TypeExpr) : List Char :=
  e.lexemes.flatMap Lexeme.text

@[simp] theorem inlineText_name (path : String) : inlineText (.name path) = path.toList := by
  simp [inlineText, lexemes, Lexeme.text]

@[simp] theorem inlineText_literal (text : String) : inlineText (.literal text) = text.toList := by
  simp [inlineText, lexemes, Lexeme.text]

private theorem text_joinLexemes (parts : List (List Lexeme)) :
    (joinLexemes parts).flatMap Lexeme.text =
      [','].intercalate (parts.map fun part => part.flatMap Lexeme.text) := by
  induction parts with
  | nil => rfl
  | cons head tail inductionHypothesis =>
      cases tail with
      | nil => simp [joinLexemes]
      | cons second others =>
          rw [Value.joinLexemes_cons head (by simp), List.flatMap_append, List.flatMap_cons,
            inductionHypothesis]
          simp [List.intercalate_cons_cons, Lexeme.text]

theorem inlineText_subscript (base : TypeExpr) (arguments : List TypeExpr) :
    inlineText (.subscript base arguments) =
      inlineText base ++ '[' :: ([','].intercalate (arguments.map inlineText) ++ [']']) := by
  rw [inlineText, lexemes, List.flatMap_append, List.flatMap_cons, List.flatMap_append,
    text_joinLexemes, lexemesOfAll_eq_map, List.map_map]
  rfl

/-- A value expression is spelled by its lexemes. -/
theorem IsValue.spells {e : TypeExpr} (isValue : IsValue e) : Value.Spells e.lexemes e := by
  induction isValue with
  | @name path dotted =>
      have complete : Dotted.isComplete path.toList = true := by
        simp only [isDottedName, Bool.and_eq_true] at dotted
        exact dotted.1.1
      simpa [lexemes, String.ofList_toList] using Value.Spells.name complete
  | @number text => simpa [lexemes] using @Value.Spells.literal text.toList
  | @quoted text => simpa [lexemes] using @Value.Spells.literal text.toList
  | @ellipsis text => simpa [lexemes] using @Value.Spells.literal text.toList
  | @subscript base arguments ofBase nonempty ofArguments baseHypothesis inductionHypothesis =>
      have entries : ∀ entry ∈ arguments.map fun argument => (argument.lexemes, argument),
          Value.Spells entry.1 entry.2 := by
        intro entry member
        obtain ⟨argument, inside, rfl⟩ := List.mem_map.mp member
        exact inductionHypothesis argument inside
      have spelled := Value.Spells.subscript false baseHypothesis (by simpa using nonempty) entries
      rw [List.map_map, List.map_map] at spelled
      simpa [lexemes, lexemesOfAll_eq_map, Value.trailingComma, Function.comp_def] using spelled

private theorem lex_intercalate {arguments : List TypeExpr} (nonempty : arguments ≠ [])
    (single : ∀ argument ∈ arguments, Value.lex argument.inlineText = .ok argument.lexemes) :
    Value.lex ([','].intercalate (arguments.map inlineText)) =
      .ok (joinLexemes (arguments.map lexemes)) := by
  induction arguments with
  | nil => exact absurd rfl nonempty
  | cons head tail inductionHypothesis =>
      have ofHead := single head List.mem_cons_self
      cases tail with
      | nil => simpa [joinLexemes] using ofHead
      | cons second others =>
          have ofTail := inductionHypothesis (List.cons_ne_nil second others)
            fun argument member => single argument (List.mem_cons_of_mem head member)
          have divided := Value.lex_append_mark ofHead .comma ofTail
          simpa [joinLexemes, List.intercalate_cons_cons, Lexeme.text] using divided

theorem IsValue.lex_inlineText {e : TypeExpr} (isValue : IsValue e) :
    Value.lex e.inlineText = .ok e.lexemes := by
  induction isValue with
  | @name path dotted =>
      rw [inlineText_name, lexemes]
      exact Value.lex_of_isDottedName dotted
  | @number text digits =>
      rw [inlineText_literal, lexemes]
      exact Value.lex_of_isNumber digits
  | @quoted text quoted =>
      rw [inlineText_literal, lexemes]
      exact Value.lex_of_isQuoted quoted
  | @ellipsis text dots =>
      rw [inlineText_literal, lexemes, dots]
      exact Value.lex_ellipsis
  | @subscript base arguments ofBase nonempty ofArguments baseHypothesis inductionHypothesis =>
      have ofList := lex_intercalate nonempty inductionHypothesis
      have closed := Value.lex_append_mark ofList .closeBracket Value.lex_nil
      have whole := Value.lex_append_mark baseHypothesis .openBracket closed
      rw [inlineText_subscript, lexemes, lexemesOfAll_eq_map]
      simpa [Lexeme.text] using whole

/-- A value expression reads back from its text, with its namespaces. -/
theorem IsValue.parse_inlineText {e : TypeExpr} (isValue : IsValue e) :
    Value.parse e.inlineText = .ok ⟨e, e.namespaces⟩ := by
  rw [Value.parse, isValue.lex_inlineText]
  exact Value.read_eq_ok_iff.mpr ⟨isValue.spells, rfl⟩

/-! ## The characters of a spelling -/

theorem isInline_of_isIdentifierPart {c : Char} (part : Value.isIdentifierPart c = true) :
    isInline c = true := by
  have notBlank : Text.isBlank c = false := by
    simp only [Value.isIdentifierPart, Char.isAlphanum, Bool.or_eq_true, beq_iff_eq] at part
    rcases part with ((letter | digit) | rfl) | rfl
    · exact Token.not_isBlank_of_isWordChar (by simp [Token.isWordChar, letter])
    · rw [Token.isDigit_iff] at digit
      simp only [Text.isBlank, Text.blankRanges, List.any_cons, List.any_nil, Bool.or_false,
        Bool.or_eq_false_iff, Bool.and_eq_false_iff, decide_eq_false_iff_not]
      omega
    · decide
    · decide
  have notOpening : c ≠ '(' := by
    rintro rfl
    exact absurd part (by decide)
  have notClosing : c ≠ ')' := by
    rintro rfl
    exact absurd part (by decide)
  have notBar : c ≠ '|' := by
    rintro rfl
    exact absurd part (by decide)
  simp [isInline, notBlank, notOpening, notClosing, notBar]

theorem isIdentifierPart_of_isNumberPart {c : Char} (part : Value.isNumberPart c = true) :
    Value.isIdentifierPart c = true := by
  rw [Value.isNumberPart, Bool.or_eq_true] at part
  rcases part with digit | dot
  · simp [Value.isIdentifierPart, Char.isAlphanum, digit]
  · simp [Value.isIdentifierPart, dot]

theorem isNumberPart_of_isNumber {text : List Char} (digits : isNumber text = true) :
    ∀ c ∈ text, Value.isNumberPart c = true := by
  intro c member
  cases text with
  | nil => cases member
  | cons first rest =>
      rw [isNumber, Bool.and_eq_true] at digits
      rcases List.mem_cons.mp member with rfl | inRest
      · simp [Value.isNumberPart, digits.1]
      · exact List.all_eq_true.mp digits.2 c inRest

theorem not_isNumber_of_isWordChar {text : List Char}
    (inWord : ∀ c ∈ text, Token.isWordChar c = true) : isNumber text = false := by
  cases text with
  | nil => rfl
  | cons c rest =>
      rw [isNumber, Token.not_isDigit_of_isWordChar (inWord c List.mem_cons_self)]
      rfl

/-- A spelling has no white space, parenthesis or sign of alternation. -/
theorem IsValue.isInline_inlineText {e : TypeExpr} (isValue : IsValue e) :
    ∀ c ∈ e.inlineText, isInline c = true := by
  induction isValue with
  | @name path dotted =>
      rw [inlineText_name]
      simp only [isDottedName, Bool.and_eq_true] at dotted
      intro c member
      exact isInline_of_isIdentifierPart (List.all_eq_true.mp dotted.1.2 c member)
  | @number text digits =>
      rw [inlineText_literal]
      intro c member
      exact isInline_of_isIdentifierPart
        (isIdentifierPart_of_isNumberPart (isNumberPart_of_isNumber digits c member))
  | @quoted text quoted =>
      rw [inlineText_literal]
      obtain ⟨quote, body, isQuote, written, ofBody⟩ := quoted
      have ofQuote : isInline quote = true := by rcases isQuote with rfl | rfl <;> decide
      rw [written]
      intro c member
      rcases List.mem_cons.mp member with rfl | member
      · exact ofQuote
      rcases List.mem_append.mp member with inBody | atEnd
      · exact (ofBody c inBody).2
      · rw [List.mem_singleton.mp atEnd]
        exact ofQuote
  | @ellipsis text dots =>
      rw [inlineText_literal, dots]
      exact List.all_eq_true.mp (by decide)
  | @subscript base arguments ofBase nonempty ofArguments baseHypothesis inductionHypothesis =>
      rw [inlineText_subscript]
      have ofList : ∀ c ∈ [','].intercalate (arguments.map inlineText), isInline c = true := by
        refine Intercalate.forall_mem (fun c => isInline c = true)
          (List.all_eq_true.mp (by decide)) ?_
        intro part member
        obtain ⟨argument, inside, rfl⟩ := List.mem_map.mp member
        exact inductionHypothesis argument inside
      intro c member
      rcases List.mem_append.mp member with inBase | inLater
      · exact baseHypothesis c inBase
      rcases List.mem_cons.mp inLater with rfl | inLater
      · decide
      rcases List.mem_append.mp inLater with inList | atEnd
      · exact ofList c inList
      · rw [List.mem_singleton.mp atEnd]
        decide

/-! ## The tokens of a spelling -/

open Token (ofText SpellsNoBar)

theorem ofText_brackets (front inner : List Char) :
    ofText (front ++ '[' :: (inner ++ [']'])) =
      ofText front ++ .other '[' :: (ofText inner ++ [.other ']']) := by
  rw [Token.ofText_append_mark (by decide), Token.ofText_append_mark (by decide)]
  rfl

theorem ofText_inlineText_subscript (base : TypeExpr) (arguments : List TypeExpr) :
    ofText (inlineText (.subscript base arguments)) =
      ofText base.inlineText ++ .other '[' ::
        ([Token.other ','].intercalate (arguments.map fun argument => ofText argument.inlineText) ++
          [.other ']']) := by
  rw [inlineText_subscript, ofText_brackets, Token.separates_comma.ofText_intercalate, List.map_map]
  rfl

/-- Documentation writes a value expression with a space behind each comma, which is no
token. -/
theorem IsValue.ofText_docText {e : TypeExpr} (isValue : IsValue e) :
    ofText e.docText = ofText e.inlineText := by
  induction isValue with
  | name => rw [docText, inlineText_name]
  | number => rw [docText, inlineText_literal]
  | quoted => rw [docText, inlineText_literal]
  | ellipsis => rw [docText, inlineText_literal]
  | @subscript base arguments ofBase nonempty ofArguments baseHypothesis inductionHypothesis =>
      rw [docText, ofText_brackets, ofText_inlineText_subscript, baseHypothesis, commaSeparated,
        Token.separates_comma_space.ofText_intercalate, docTexts_eq_map, List.map_map]
      congr 3
      exact congrArg _ (List.map_congr_left inductionHypothesis)

/-- No name and no literal of the type has a run of word characters that is the word
`or`. -/
def AtomsSpellNoBar (e : TypeExpr) : Prop :=
  ∀ text : String, Within (.name text) e ∨ Within (.literal text) e → SpellsNoBar text.toList

theorem atomsSpellNoBar_generic {ctor : Generic} {arguments : List TypeExpr} :
    AtomsSpellNoBar (.generic ctor arguments) ↔
      ∀ argument ∈ arguments, AtomsSpellNoBar argument := by
  simp only [AtomsSpellNoBar, within_generic, reduceCtorEq, false_or]
  constructor
  · intro noBar argument member text inside
    exact noBar text (inside.imp (fun found => ⟨argument, member, found⟩)
      fun found => ⟨argument, member, found⟩)
  · rintro noBar text (⟨argument, member, inside⟩ | ⟨argument, member, inside⟩)
    · exact noBar argument member text (.inl inside)
    · exact noBar argument member text (.inr inside)

theorem atomsSpellNoBar_union {alternatives : List TypeExpr} :
    AtomsSpellNoBar (.union alternatives) ↔
      ∀ alternative ∈ alternatives, AtomsSpellNoBar alternative := by
  simp only [AtomsSpellNoBar, within_union, reduceCtorEq, false_or]
  constructor
  · intro noBar alternative member text inside
    exact noBar text (inside.imp (fun found => ⟨alternative, member, found⟩)
      fun found => ⟨alternative, member, found⟩)
  · rintro noBar text (⟨alternative, member, inside⟩ | ⟨alternative, member, inside⟩)
    · exact noBar alternative member text (.inl inside)
    · exact noBar alternative member text (.inr inside)

theorem atomsSpellNoBar_subscript {base : TypeExpr} {arguments : List TypeExpr} :
    AtomsSpellNoBar (.subscript base arguments) ↔
      AtomsSpellNoBar base ∧ ∀ argument ∈ arguments, AtomsSpellNoBar argument := by
  simp only [AtomsSpellNoBar, within_subscript, reduceCtorEq, false_or]
  constructor
  · intro noBar
    refine ⟨fun text inside => noBar text (inside.imp .inl .inl), ?_⟩
    intro argument member text inside
    exact noBar text (inside.imp (fun found => .inr ⟨argument, member, found⟩)
      fun found => .inr ⟨argument, member, found⟩)
  · rintro ⟨ofBase, ofArguments⟩ text
      ((inBase | ⟨argument, member, inside⟩) | (inBase | ⟨argument, member, inside⟩))
    · exact ofBase text (.inl inBase)
    · exact ofArguments argument member text (.inl inside)
    · exact ofBase text (.inr inBase)
    · exact ofArguments argument member text (.inr inside)

/-- A spelling has a bar exactly where an atom has one. -/
theorem IsValue.spellsNoBar_inlineText {e : TypeExpr} (isValue : IsValue e) :
    SpellsNoBar e.inlineText ↔ AtomsSpellNoBar e := by
  induction isValue with
  | name => simp [AtomsSpellNoBar, within_name]
  | number => simp [AtomsSpellNoBar, within_literal]
  | quoted => simp [AtomsSpellNoBar, within_literal]
  | ellipsis => simp [AtomsSpellNoBar, within_literal]
  | @subscript base arguments ofBase nonempty ofArguments baseHypothesis inductionHypothesis =>
      have whole : IsValue (.subscript base arguments) := .subscript ofBase nonempty ofArguments
      have absent : ∀ {other : TypeExpr}, IsValue other →
          (SpellsNoBar other.inlineText ↔ Token.bar ∉ ofText other.inlineText) := by
        intro other otherValue
        rw [Token.bar_mem_ofText otherValue.isInline_inlineText, not_not]
      rw [atomsSpellNoBar_subscript, ← baseHypothesis, absent whole, absent ofBase,
        ofText_inlineText_subscript]
      constructor
      · intro noBar
        refine ⟨fun inBase => noBar (List.mem_append_left _ inBase), ?_⟩
        intro argument member
        rw [← inductionHypothesis argument member, absent (ofArguments argument member)]
        intro inArgument
        refine noBar (List.mem_append_right _ (List.mem_cons_of_mem _ (List.mem_append_left _ ?_)))
        exact Intercalate.mem_of_mem_part (List.mem_map_of_mem member) inArgument
      · rintro ⟨notBase, notArguments⟩ present
        rcases List.mem_append.mp present with inBase | later
        · exact notBase inBase
        rcases List.mem_cons.mp later with isBracket | later
        · cases isBracket
        rcases List.mem_append.mp later with inList | atEnd
        · rcases Intercalate.mem_or_mem inList with isComma | ⟨part, inParts, inside⟩
          · simp at isComma
          · obtain ⟨argument, member, rfl⟩ := List.mem_map.mp inParts
            have noBar := (inductionHypothesis argument member).mpr (notArguments argument member)
            exact (absent (ofArguments argument member)).mp noBar inside
        · simp at atEnd

end TypeExpr

end TypeStub
