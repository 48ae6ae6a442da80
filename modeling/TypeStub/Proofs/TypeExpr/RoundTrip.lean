import TypeStub.Proofs.TypeExpr.Reread

/-!
Contract: reading back what documentation writes.

Owns:
- `TypeExpr.Documentable`, the trees that documentation can write;
- that they are read back with exactly the namespaces they refer to;
- which of the types that have been read are read back.
-/

namespace TypeStub.TypeExpr

open Arguments (depthThrough isGuarded)
open Token (SpellsNoBar)

/-! ## Trees that documentation can write -/

/-- A quoted text without white space, punctuation of types, its own quote, and the word
`or`. -/
def IsPlainlyQuoted (text : List Char) : Prop :=
  ∃ quote body, (quote = '\'' ∨ quote = '"') ∧ text = quote :: (body ++ [quote]) ∧
    (∀ c ∈ body, c ≠ quote ∧ isInline c = true ∧ c ≠ '[' ∧ c ≠ ']' ∧ c ≠ ',') ∧ SpellsNoBar body

/-- A value expression that documentation can write in brackets. -/
inductive DocumentableValue : TypeExpr → Prop
  | name {path : String} (dotted : isDottedName path.toList = true)
      (noBar : SpellsNoBar path.toList) : DocumentableValue (.name path)
  | number {text : String} (digits : isNumber text.toList = true) :
      DocumentableValue (.literal text)
  | quoted {text : String} (quoted : IsPlainlyQuoted text.toList) :
      DocumentableValue (.literal text)
  | ellipsis : DocumentableValue (.literal "...")
  | subscript {base : TypeExpr} {arguments : List TypeExpr} (ofBase : DocumentableValue base)
      (nonempty : arguments ≠ [])
      (ofArguments : ∀ argument ∈ arguments, DocumentableValue argument) :
      DocumentableValue (.subscript base arguments)

/-- A type that documentation can write. An ellipsis only stands in brackets or before
them. -/
inductive Documentable : TypeExpr → Prop
  | value {e : TypeExpr} (ofValue : DocumentableValue e) (notEllipsis : e ≠ .literal "...") :
      Documentable e
  | generic {ctor : Generic} {arguments : List TypeExpr}
      (taken : ctor.takes arguments.length = true) (nonempty : arguments ≠ [])
      (ofArguments : ∀ argument ∈ arguments, Documentable argument) :
      Documentable (.generic ctor arguments)
  | union {alternatives : List TypeExpr} (several : 2 ≤ alternatives.length)
      (ofAlternatives : ∀ alternative ∈ alternatives, Documentable alternative) :
      Documentable (.union alternatives)

theorem IsPlainlyQuoted.isQuoted {text : List Char} (plain : IsPlainlyQuoted text) :
    IsQuoted text := by
  obtain ⟨quote, body, isQuote, written, ofBody, -⟩ := plain
  exact ⟨quote, body, isQuote, written,
    fun c member => ⟨(ofBody c member).1, (ofBody c member).2.1⟩⟩

theorem DocumentableValue.isValue {e : TypeExpr} (documentable : DocumentableValue e) :
    IsValue e := by
  induction documentable with
  | name dotted noBar => exact .name dotted
  | number digits => exact .number digits
  | quoted quoted => exact .quoted quoted.isQuoted
  | ellipsis => exact .ellipsis rfl
  | subscript ofBase nonempty ofArguments baseHypothesis inductionHypothesis =>
      exact .subscript baseHypothesis nonempty inductionHypothesis

theorem Documentable.wellFormed {e : TypeExpr} (documentable : Documentable e) : WellFormed e := by
  induction documentable with
  | value ofValue notEllipsis => exact .value ofValue.isValue
  | generic taken nonempty ofArguments inductionHypothesis =>
      exact .generic taken nonempty inductionHypothesis
  | union several ofAlternatives inductionHypothesis => exact .union several inductionHypothesis

/-! ## Their atoms spell no bar -/

private theorem spellsNoBar_of_not_mem {text : List Char} (absent : 'o' ∉ text) :
    SpellsNoBar text := by
  intro member
  exact absent (Intercalate.mem_of_mem_splitOnP member 'o' List.mem_cons_self)

private theorem spellsNoBar_of_isNumber {text : List Char} (digits : isNumber text = true) :
    SpellsNoBar text := by
  refine spellsNoBar_of_not_mem ?_
  intro member
  cases isNumberPart_of_isNumber digits 'o' member

private theorem IsPlainlyQuoted.spellsNoBar {text : List Char} (plain : IsPlainlyQuoted text) :
    SpellsNoBar text := by
  obtain ⟨quote, body, isQuote, rfl, -, noBar⟩ := plain
  have divides : (!Token.isWordChar quote) = true := by rcases isQuote with rfl | rfl <;> rfl
  have runs : Token.wordRuns (quote :: (body ++ [quote])) =
      [] :: (Token.wordRuns body ++ [[]]) := by
    have behind : (body ++ [quote]).splitOnP (fun c => !Token.isWordChar c) =
        Token.wordRuns body ++ [[]] := by
      rw [List.splitOnP_append_cons body [] divides, List.splitOnP_nil, Token.wordRuns]
    rw [Token.wordRuns, List.splitOnP_cons_eq_if_modifyHead, if_pos divides, behind]
  rw [SpellsNoBar] at noBar ⊢
  rw [runs]
  simpa using noBar

theorem DocumentableValue.atomsSpellNoBar {e : TypeExpr} (documentable : DocumentableValue e) :
    AtomsSpellNoBar e := by
  induction documentable with
  | name dotted noBar => simpa [AtomsSpellNoBar, within_name, within_literal] using noBar
  | number digits =>
      have noBar := spellsNoBar_of_isNumber digits
      simpa [AtomsSpellNoBar, within_name, within_literal] using noBar
  | quoted quoted =>
      have noBar := quoted.spellsNoBar
      simpa [AtomsSpellNoBar, within_name, within_literal] using noBar
  | ellipsis =>
      have noBar : SpellsNoBar "...".toList := by decide
      simpa [AtomsSpellNoBar, within_name, within_literal] using noBar
  | subscript ofBase nonempty ofArguments baseHypothesis inductionHypothesis =>
      exact atomsSpellNoBar_subscript.mpr ⟨baseHypothesis, inductionHypothesis⟩

/-! ## Their arguments stand apart -/

private theorem shows_nothing_of_plain {text : List Char}
    (plain : ∀ c ∈ text, c ≠ '[' ∧ c ≠ ']' ∧ c ≠ ',') : Shows [] text := by
  induction text with
  | nil => exact shows_nil
  | cons c rest inductionHypothesis =>
      obtain ⟨notOpen, notClose, notComma⟩ := plain c List.mem_cons_self
      have ofRest := inductionHypothesis fun d member => plain d (List.mem_cons_of_mem c member)
      exact (shows_plain notOpen notClose notComma).append ofRest

private theorem depthThrough_bracketed (before : Nat) (inner : List Char) :
    depthThrough charToken? before ('[' :: (inner ++ [']'])) =
      depthThrough charToken? (before + 1) inner - 1 := by
  rw [Arguments.depthThrough_cons, Arguments.depthThrough_append]
  rfl

private theorem isGuarded_bracketed (before : Nat) (inner : List Char) :
    isGuarded charToken? before ('[' :: (inner ++ [']'])) =
      isGuarded charToken? (before + 1) inner := by
  have ofOpen : isGuarded charToken? before ('[' :: (inner ++ [']'])) =
      isGuarded charToken? (before + 1) (inner ++ [']']) := by
    simp [isGuarded, charToken?, Arguments.depthAfter]
  rw [ofOpen, Arguments.isGuarded_append]
  simp [isGuarded, charToken?]

private theorem isGuarded_comma_cons (before : Nat) (rest : List Char) :
    isGuarded charToken? (before + 1) (',' :: rest) = isGuarded charToken? (before + 1) rest := by
  simp [isGuarded, charToken?, Arguments.depthAfter_comma]

/-- Texts that show nothing show nothing together inside brackets, where commas stand
between them. -/
private theorem joined_in_brackets {texts : List (List Char)}
    (single : ∀ text ∈ texts, Shows [] text) (before : Nat) :
    depthThrough charToken? (before + 1) ([','].intercalate texts) = before + 1 ∧
      isGuarded charToken? (before + 1) ([','].intercalate texts) = true := by
  induction texts with
  | nil => exact ⟨rfl, rfl⟩
  | cons head tail inductionHypothesis =>
      have ofHead := single head List.mem_cons_self
      have depth : depthThrough charToken? (before + 1) head = before + 1 :=
        (ofHead.depth (before + 1)).symm
      have guarded : isGuarded charToken? (before + 1) head = true :=
        (ofHead.guarded (before + 1)).symm
      cases tail with
      | nil => simpa using And.intro depth guarded
      | cons second others =>
          obtain ⟨laterDepth, laterGuarded⟩ :=
            inductionHypothesis fun text member => single text (List.mem_cons_of_mem head member)
          rw [List.intercalate_cons_cons, List.append_assoc, List.singleton_append,
            Arguments.depthThrough_append, Arguments.isGuarded_append, depth, guarded,
            isGuarded_comma_cons, laterGuarded]
          exact ⟨laterDepth, rfl⟩

private theorem not_mark_of_isIdentifierPart {c : Char} (part : Value.isIdentifierPart c = true) :
    c ≠ '[' ∧ c ≠ ']' ∧ c ≠ ',' := by
  refine ⟨?_, ?_, ?_⟩
  · rintro rfl
    exact absurd part (by decide)
  · rintro rfl
    exact absurd part (by decide)
  · rintro rfl
    exact absurd part (by decide)

theorem DocumentableValue.shows_nothing {e : TypeExpr} (documentable : DocumentableValue e) :
    Shows [] e.inlineText := by
  induction documentable with
  | @name path dotted noBar =>
      rw [inlineText_name]
      simp only [isDottedName, Bool.and_eq_true] at dotted
      refine shows_nothing_of_plain fun c member => ?_
      exact not_mark_of_isIdentifierPart (List.all_eq_true.mp dotted.1.2 c member)
  | @number text digits =>
      rw [inlineText_literal]
      refine shows_nothing_of_plain fun c member => ?_
      have part := isNumberPart_of_isNumber digits c member
      exact not_mark_of_isIdentifierPart (isIdentifierPart_of_isNumberPart part)
  | @quoted text quoted =>
      rw [inlineText_literal]
      obtain ⟨quote, body, isQuote, written, ofBody, -⟩ := quoted
      have ofQuote : quote ≠ '[' ∧ quote ≠ ']' ∧ quote ≠ ',' := by
        rcases isQuote with rfl | rfl <;> decide
      refine shows_nothing_of_plain ?_
      rw [written]
      intro c member
      rcases List.mem_cons.mp member with rfl | member
      · exact ofQuote
      rcases List.mem_append.mp member with inBody | atEnd
      · exact (ofBody c inBody).2.2
      · rw [List.mem_singleton.mp atEnd]
        exact ofQuote
  | ellipsis => exact shows_nothing_of_plain (by simp)
  | @subscript base arguments ofBase nonempty ofArguments baseHypothesis inductionHypothesis =>
      rw [inlineText_subscript]
      have ofTexts : ∀ text ∈ arguments.map inlineText, Shows [] text := by
        intro text member
        obtain ⟨argument, inside, rfl⟩ := List.mem_map.mp member
        exact inductionHypothesis argument inside
      have ofBrackets :
          Shows [] ('[' :: ([','].intercalate (arguments.map inlineText) ++ [']'])) := by
        constructor
        · intro before
          rw [depthThrough_bracketed, (joined_in_brackets ofTexts before).1]
          rfl
        · intro before
          rw [isGuarded_bracketed, (joined_in_brackets ofTexts before).2]
          rfl
      exact baseHypothesis.append ofBrackets

theorem Documentable.shows_nothing {e : TypeExpr} (documentable : Documentable e) :
    Shows [] e.exposedText := by
  have ofValueText : ∀ e, Documentable e → Shows [] e.valueText := by
    intro e documentable
    cases documentable with
    | value ofValue notEllipsis =>
        rw [ofValue.isValue.valueText_eq.1]
        exact ofValue.shows_nothing
    | generic => exact shows_nil
    | union => exact shows_nil
  cases documentable with
  | value ofValue notEllipsis =>
      rw [ofValue.isValue.valueText_eq.2]
      exact ofValue.shows_nothing
  | generic => exact shows_nil
  | @union alternatives several ofAlternatives =>
      rw [exposedText]
      clear several
      induction alternatives with
      | nil => exact shows_nil
      | cons head tail inductionHypothesis =>
          have ofHead := ofValueText head (ofAlternatives head List.mem_cons_self)
          have ofTail := inductionHypothesis fun alternative member =>
            ofAlternatives alternative (List.mem_cons_of_mem head member)
          exact ofHead.append ofTail

/-- What documentation can write is rereadable. -/
theorem Documentable.rereadable {e : TypeExpr} (documentable : Documentable e) : Rereadable e := by
  induction documentable with
  | value ofValue notEllipsis => exact .value ofValue.isValue ofValue.atomsSpellNoBar notEllipsis
  | generic taken nonempty ofArguments inductionHypothesis =>
      refine .generic ⟨?_, ?_⟩ inductionHypothesis
      · intro argument member
        exact ((ofArguments argument member).shows_nothing.guarded 0).symm
      · intro argument member
        exact ((ofArguments argument (List.dropLast_subset _ member)).shows_nothing.depth 0).symm
  | union several ofAlternatives inductionHypothesis => exact .union inductionHypothesis

/-! ## Reading back -/

/-- A tree that documentation can write is read back from it, with exactly the namespaces
that its dotted names and iterators refer to. -/
theorem parse_toDoc_of_documentable {e : TypeExpr} (documentable : Documentable e) :
    ∃ namespaces, parse e.toDoc = .ok ⟨e, namespaces⟩ ∧
      ∀ name, name ∈ namespaces ↔ e.Refers name := by
  refine ⟨e.namespaces, ?_, fun name => mem_namespaces⟩
  exact documentable.wellFormed.parse_toDoc_eq_resolved_iff.mpr documentable.rereadable

/-- An iterator over a name, a nested choice and a tuple. -/
def nestedChoice : TypeExpr :=
  .generic .iter [.union [
    .name "int",
    .union [.name "xsd.String", .subscript (.name "dict") [.literal "'ab'", .literal "..."]],
    .generic .tuple [.name "_x", .literal "1.5"]]]

theorem documentable_nestedChoice : Documentable nestedChoice := by
  have ofDict :
      DocumentableValue (.subscript (.name "dict") [.literal "'ab'", .literal "..."]) := by
    refine .subscript (.name (by decide) (by decide)) (by simp) ?_
    simp only [List.mem_cons, List.not_mem_nil, or_false, forall_eq_or_imp, forall_eq]
    exact ⟨.quoted ⟨'\'', ['a', 'b'], .inl rfl, rfl, by simp; decide, by decide⟩, .ellipsis⟩
  refine .generic rfl (by simp) ?_
  simp only [List.mem_singleton, forall_eq]
  refine .union (by decide) ?_
  simp only [List.mem_cons, List.not_mem_nil, or_false, forall_eq_or_imp, forall_eq]
  refine ⟨.value (.name (by decide) (by decide)) (by decide), ?_, ?_⟩
  · refine .union (by decide) ?_
    simp only [List.mem_cons, List.not_mem_nil, or_false, forall_eq_or_imp, forall_eq]
    exact ⟨.value (.name (by decide) (by decide)) (by decide), .value ofDict (by decide)⟩
  · refine .generic rfl (by simp) ?_
    simp only [List.mem_cons, List.not_mem_nil, or_false, forall_eq_or_imp, forall_eq]
    exact ⟨.value (.name (by decide) (by decide)) (by decide),
      .value (.number (by decide)) (by decide)⟩

theorem parse_toDoc_nestedChoice :
    nestedChoice.toDoc = "iter(int or (xsd.String or dict['ab', ...]) or tuple(_x, 1.5))" ∧
      ∃ namespaces, parse nestedChoice.toDoc = .ok ⟨nestedChoice, namespaces⟩ ∧
        ∀ name, name ∈ namespaces ↔ nestedChoice.Refers name :=
  ⟨by decide, parse_toDoc_of_documentable documentable_nestedChoice⟩

/-- A type that has been read is read back from documentation, as the same tree and with the
same namespaces, exactly if it is rereadable. -/
theorem parse_toDoc_eq_iff_rereadable {text : String} {found : Resolved TypeExpr}
    (accepted : parse text = .ok found) :
    parse found.value.toDoc = .ok found ↔ Rereadable found.value := by
  obtain ⟨wellFormed, same⟩ := wellFormed_of_parse accepted
  rw [← wellFormed.parse_toDoc_eq_resolved_iff, ← same]

private theorem parse_spaced_or : parse "o r" = .ok (resolved (.name "or")) :=
  parse_of_tokens [.word ['o'], .word ['r']] (by rfl) (by decide) (by simp) (.name (by decide))
    (by decide)

/-- Two words that make up the name `or` are read, but the name is not read back: the word
is a bar. -/
theorem parse_toDoc_spaced_or :
    parse "o r" = .ok (resolved (.name "or")) ∧
      parse (toDoc (.name "or")) ≠ .ok (resolved (.name "or")) := by
  refine ⟨parse_spaced_or, ?_⟩
  intro readBack
  cases (parse_toDoc_eq_iff_rereadable parse_spaced_or).mp readBack with
  | value isValue noBar notEllipsis =>
      exact absurd (noBar "or" (.inl .whole)) (by decide)

end TypeStub.TypeExpr
