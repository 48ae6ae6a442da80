import Mathlib.Data.List.Infix
import TypeStub.Proofs.TypeExpr.Grammar

/-!
Contract: where the names and literals of a type stand in the text that it is read from.

Owns:
- `Text.StandsIn`, a text that stands in another one apart from white space;
- `TypeExpr.HasAtom`, the names and literals of a type at any depth;
- `TypeExpr.standsIn_of_parse`, that the reader makes up no name and no literal.

The tokens of a value expression are joined without the white space between them. So an atom
can be spread over several words of the text, and `TypeExpr.parse_spaced_quote` shows one that
the text does not hold as it is.
-/

namespace TypeStub

/-! ## Stretches of a text -/

namespace Text

/-- The text without its white space. -/
def unspaced (text : List Char) : List Char :=
  text.filter fun c => !isBlank c

/-- The part is what a stretch of the whole text leaves without its white space. -/
def StandsIn (part whole : List Char) : Prop :=
  ∃ stretch, stretch <:+: whole ∧ unspaced stretch = part

theorem standsIn_of_infix_unspaced {part whole : List Char} (inside : part <:+: unspaced whole) :
    StandsIn part whole := by
  obtain ⟨before, after, divided⟩ := inside
  obtain ⟨front, back, rfl, isFront, -⟩ := List.filter_eq_append_iff.mp divided.symm
  obtain ⟨left, stretch, rfl, -, isPart⟩ := List.filter_eq_append_iff.mp isFront
  exact ⟨stretch, ⟨left, back, rfl⟩, isPart⟩

/-- Without white space, what stands in a text is a part of it as it is. -/
theorem StandsIn.isInfix {part whole : List Char} (stands : StandsIn part whole)
    (noBlank : ∀ c ∈ whole, isBlank c = false) : part <:+: whole := by
  obtain ⟨stretch, inside, rfl⟩ := stands
  have kept : unspaced stretch = stretch := by
    rw [unspaced, List.filter_eq_self]
    intro c member
    simp [noBlank c (inside.subset member)]
  rwa [kept]

end Text

/-! ## Tokens -/

namespace Token

open Text (unspaced)

/-- The characters with which a text spells the token. A bar has several spellings. -/
private def SpelledBy (token : Token) (piece : List Char) : Prop :=
  token ≠ .bar → piece = token.text

private theorem exists_spelling_ofRun (run : List Char) :
    ∃ pieces, List.Forall₂ SpelledBy (ofRun run) pieces ∧ pieces.flatten = run := by
  unfold ofRun
  split
  · exact ⟨[], .nil, rfl⟩
  · exact ⟨[['o', 'r']], .cons (fun notBar => absurd rfl notBar) .nil, rfl⟩
  · exact ⟨[run], .cons (fun _ => rfl) .nil, by simp⟩

private theorem exists_spelling_ofMark (c : Char) :
    ∃ pieces, List.Forall₂ SpelledBy (ofMark c) pieces ∧ pieces.flatten = unspaced [c] := by
  unfold ofMark
  split
  · subst c
    exact ⟨[['(']], .cons (fun _ => rfl) .nil, rfl⟩
  split
  · subst c
    exact ⟨[[')']], .cons (fun _ => rfl) .nil, rfl⟩
  split
  · subst c
    exact ⟨[['|']], .cons (fun _ => rfl) .nil, rfl⟩
  split
  · rename_i blank
    exact ⟨[], .nil, by simp [unspaced, blank]⟩
  · rename_i notBlank
    exact ⟨[[c]], .cons (fun _ => rfl) .nil, by simp [unspaced, notBlank]⟩

private theorem exists_spelling_scan (text : List Char) :
    ∃ pieces, List.Forall₂ SpelledBy (scan text).2 pieces ∧
      (scan text).1 ++ pieces.flatten = unspaced text := by
  -- The run that a scan leaves open stands in front of all pieces, so it is kept apart.
  induction text with
  | nil => exact ⟨[], .nil, rfl⟩
  | cons c rest inductionHypothesis =>
      obtain ⟨later, ofLater, isRest⟩ := inductionHypothesis
      rw [scan]
      by_cases inWord : isWordChar c = true
      · refine ⟨later, by simpa [inWord] using ofLater, ?_⟩
        have kept : unspaced (c :: rest) = c :: unspaced rest := by
          simp [unspaced, not_isBlank_of_isWordChar inWord]
        rw [kept, ← isRest]
        simp [inWord]
      · obtain ⟨marks, ofMarks, isMark⟩ := exists_spelling_ofMark c
        obtain ⟨runs, ofRuns, isRun⟩ := exists_spelling_ofRun (scan rest).1
        refine ⟨marks ++ runs ++ later, ?_, ?_⟩
        · simpa [inWord] using List.rel_append (List.rel_append ofMarks ofRuns) ofLater
        · have divided : unspaced (c :: rest) = unspaced [c] ++ unspaced rest :=
            List.filter_append [c] rest
          rw [divided, ← isRest, ← isMark]
          simp [inWord, isRun]

/-- The tokens of a text have spellings that make up the text without its white space. -/
private theorem exists_spelling_ofText (text : List Char) :
    ∃ pieces, List.Forall₂ SpelledBy (ofText text) pieces ∧ pieces.flatten = unspaced text := by
  obtain ⟨runs, ofRuns, isRun⟩ := exists_spelling_ofRun (scan text).1
  obtain ⟨later, ofLater, isText⟩ := exists_spelling_scan text
  refine ⟨runs ++ later, List.rel_append ofRuns ofLater, ?_⟩
  rw [List.flatten_append, isRun, isText]

private theorem SpelledBy.flatten_eq {tokens : List Token} {pieces : List (List Char)}
    (spelled : List.Forall₂ SpelledBy tokens pieces) (noBar : Token.bar ∉ tokens) :
    pieces.flatten = tokens.flatMap Token.text := by
  induction spelled with
  | nil => rfl
  | @cons token piece tokens pieces first later inductionHypothesis =>
      obtain ⟨notBar, ofLater⟩ := not_or.mp (mt List.mem_cons.mpr noBar)
      rw [List.flatten_cons, List.flatMap_cons, first (Ne.symm notBar),
        inductionHypothesis ofLater]

/-- Neighbouring tokens without a bar stand for a part of the text without white space. -/
theorem flatMap_text_isInfix {text : List Char} {tokens : List Token}
    (inside : tokens <:+: ofText text) (noBar : Token.bar ∉ tokens) :
    tokens.flatMap Token.text <:+: unspaced text := by
  obtain ⟨pieces, spelled, isText⟩ := exists_spelling_ofText text
  obtain ⟨ofTokens, within, sameTokens⟩ := Outcome.exists_right_of_infix spelled inside
  rw [← isText, ← SpelledBy.flatten_eq sameTokens noBar]
  obtain ⟨before, after, rfl⟩ := within
  exact ⟨before.flatten, after.flatten, by simp⟩

end Token

/-! ## Value expressions -/

namespace TypeExpr

/-- The text is a name or a literal of the type, at any depth. -/
def HasAtom (e : TypeExpr) (text : String) : Prop :=
  Within (.name text) e ∨ Within (.literal text) e

theorem hasAtom_name {path text : String} : HasAtom (.name path) text ↔ text = path := by
  simp [HasAtom, within_name]

theorem hasAtom_literal {written text : String} :
    HasAtom (.literal written) text ↔ text = written := by
  simp [HasAtom, within_literal]

theorem hasAtom_generic {ctor : Generic} {arguments : List TypeExpr} {text : String} :
    HasAtom (.generic ctor arguments) text ↔ ∃ argument ∈ arguments, HasAtom argument text := by
  simp [HasAtom, within_generic, and_or_left, exists_or]

theorem hasAtom_union {alternatives : List TypeExpr} {text : String} :
    HasAtom (.union alternatives) text ↔
      ∃ alternative ∈ alternatives, HasAtom alternative text := by
  simp [HasAtom, within_union, and_or_left, exists_or]

theorem hasAtom_subscript {base : TypeExpr} {arguments : List TypeExpr} {text : String} :
    HasAtom (.subscript base arguments) text ↔
      HasAtom base text ∨ ∃ argument ∈ arguments, HasAtom argument text := by
  simp only [HasAtom, within_subscript, reduceCtorEq, false_or, and_or_left, exists_or]
  exact or_or_or_comm

end TypeExpr

namespace Value

open TypeExpr (HasAtom)

/-- Each atom of an expression is a lexeme of its own. -/
private theorem Spells.exists_lexeme {lexemes : List Lexeme} {e : TypeExpr}
    (spelled : Spells lexemes e) {text : String} (atom : HasAtom e text) :
    ∃ lexeme ∈ lexemes, lexeme.text = text.toList := by
  induction spelled with
  | @name path complete =>
      rw [TypeExpr.hasAtom_name.mp atom, String.toList_ofList]
      exact ⟨.identifier path, List.mem_cons_self, rfl⟩
  | @literal written =>
      rw [TypeExpr.hasAtom_literal.mp atom, String.toList_ofList]
      exact ⟨.literal written, List.mem_cons_self, rfl⟩
  | @subscript front base arguments trailing ofBase nonempty ofArguments baseHypothesis
      inductionHypothesis =>
      rcases TypeExpr.hasAtom_subscript.mp atom with inBase | ⟨argument, member, inArgument⟩
      · obtain ⟨lexeme, inFront, isText⟩ := baseHypothesis inBase
        exact ⟨lexeme, List.mem_append_left _ inFront, isText⟩
      · obtain ⟨entry, inArguments, rfl⟩ := List.mem_map.mp member
        obtain ⟨lexeme, inEntry, isText⟩ := inductionHypothesis entry inArguments inArgument
        have written : lexeme ∈ joinLexemes (arguments.map Prod.fst) :=
          Intercalate.mem_of_mem_part (List.mem_map_of_mem inArguments) inEntry
        exact ⟨lexeme, by simp [written], isText⟩

/-- Each atom of an expression is a part of the text that the expression is read from. -/
theorem isInfix_of_parse {input : List Char} {result : Resolved TypeExpr}
    (accepted : parse input = .ok result) {text : String} (atom : HasAtom result.value text) :
    text.toList <:+: input := by
  unfold parse at accepted
  split at accepted
  · cases accepted
  · rename_i lexemes divided
    obtain ⟨written, -⟩ := text_of_lex divided
    obtain ⟨lexeme, member, isText⟩ := (read_eq_ok_iff.mp accepted).1.exists_lexeme atom
    obtain ⟨before, after, rfl⟩ := List.append_of_mem member
    rw [← written, ← isText]
    exact ⟨before.flatMap Lexeme.text, after.flatMap Lexeme.text, by simp⟩

end Value

/-! ## Nodes -/

namespace Node

theorem flattenAll_isInfix {part nodes : List Node} (inside : part <:+: nodes) :
    flattenAll part <:+: flattenAll nodes := by
  obtain ⟨before, after, rfl⟩ := inside
  exact ⟨flattenAll before, flattenAll after, by rw [flattenAll_append, flattenAll_append]⟩

theorem flattenAll_isInfix_group {inner nodes : List Node} (member : Node.group inner ∈ nodes) :
    flattenAll inner <:+: flattenAll nodes := by
  obtain ⟨before, after, rfl⟩ := List.append_of_mem member
  exact ⟨flattenAll before ++ [.opening], .closing :: flattenAll after,
    by simp [flattenAll_append, flattenAll, flatten]⟩

end Node

namespace Sequence

open Node (flattenAll)
open TypeExpr (HasAtom)

/-- Each atom of a type is a part of what neighbouring tokens without a bar stand for. -/
private theorem Spells.exists_tokens {nodes : List Node} {e : TypeExpr}
    (spelled : Spells nodes e) {text : String} (atom : HasAtom e text) :
    ∃ tokens, tokens <:+: flattenAll nodes ∧ Token.bar ∉ tokens ∧
      text.toList <:+: tokens.flatMap Token.text := by
  -- Only names and value expressions have tokens of their own. All other types are made up of
  -- types that parts of the nodes spell, and parts of nodes flatten to parts of the tokens.
  induction spelled with
  | @name word complete =>
      rw [TypeExpr.hasAtom_name.mp atom, String.toList_ofList]
      exact ⟨[.word word], List.infix_refl _, by simp, by simp [Token.text]⟩
  | @value tokens e noBar several parsed =>
      refine ⟨tokens, ?_, noBar, Value.isInfix_of_parse parsed atom⟩
      rw [Node.flattenAll_map_token]
  | @generic word ctor inner arguments named taken divided ofArguments inductionHypothesis =>
      obtain ⟨argument, member, inArgument⟩ := TypeExpr.hasAtom_generic.mp atom
      obtain ⟨entry, inArguments, rfl⟩ := List.mem_map.mp member
      obtain ⟨tokens, within, found⟩ := inductionHypothesis entry inArguments inArgument
      have isPart : entry.1 <:+: inner := by
        rw [← Node.intercalate_split inner, divided]
        exact Intercalate.isInfix_of_mem_part (List.mem_map_of_mem inArguments)
      exact ⟨tokens, within.trans ((Node.flattenAll_isInfix isPart).trans
        (Node.flattenAll_isInfix_group (by simp))), found⟩
  | @grouped inner e ofInner inductionHypothesis =>
      obtain ⟨tokens, within, found⟩ := inductionHypothesis atom
      exact ⟨tokens, within.trans (Node.flattenAll_isInfix_group List.mem_cons_self), found⟩
  | @union alternatives several noBar ofAlternatives inductionHypothesis =>
      obtain ⟨alternative, member, inAlternative⟩ := TypeExpr.hasAtom_union.mp atom
      obtain ⟨entry, inAlternatives, rfl⟩ := List.mem_map.mp member
      obtain ⟨tokens, within, found⟩ := inductionHypothesis entry inAlternatives inAlternative
      have isPart : entry.1 <:+: [Node.token .bar].intercalate (alternatives.map Prod.fst) :=
        Intercalate.isInfix_of_mem_part (List.mem_map_of_mem inAlternatives)
      exact ⟨tokens, within.trans (Node.flattenAll_isInfix isPart), found⟩

end Sequence

/-! ## Texts -/

namespace TypeExpr

/-- Every name and every literal of a type that is read, at any depth, is what some stretch of
the text leaves without its white space. A text without white space holds it as it is. -/
theorem standsIn_of_parse {text : String} {result : Resolved TypeExpr}
    (accepted : parse text = .ok result) {atom : String} (isAtom : HasAtom result.value atom) :
    Text.StandsIn atom.toList text.toList ∧
      ((∀ c ∈ text.toList, Text.isBlank c = false) → atom.toList <:+: text.toList) := by
  obtain ⟨nodes, e, grouping, spelled, rfl⟩ := parse_eq_ok_iff.mp accepted
  obtain ⟨written, -⟩ := Node.flattenAll_of_ofTokens grouping
  obtain ⟨tokens, within, noBar, found⟩ := spelled.exists_tokens isAtom
  rw [written] at within
  have stands : Text.StandsIn atom.toList text.toList :=
    Text.standsIn_of_infix_unspaced (found.trans (Token.flatMap_text_isInfix within noBar))
  exact ⟨stands, stands.isInfix⟩

/-- Three words make up one name. -/
theorem standsIn_of_parse_words :
    parse "list of str" = .ok (resolved (.name "listofstr")) ∧
      HasAtom (.name "listofstr") "listofstr" ∧
      Text.StandsIn "listofstr".toList "list of str".toList := by
  have accepted : parse "list of str" = .ok (resolved (.name "listofstr")) :=
    parse_of_tokens [.word "list".toList, .word "of".toList, .word "str".toList] (by rfl)
      (by decide) (by simp) (.name (by decide)) (by decide)
  have isAtom : HasAtom (.name "listofstr") "listofstr" := .inl .whole
  exact ⟨accepted, isAtom, (standsIn_of_parse accepted isAtom).1⟩

/-- A quoted text loses its space, and the text does not hold the literal that is read. -/
theorem parse_spaced_quote :
    ∃ result literal, parse "'a b'" = .ok result ∧ Within (.literal literal) result.value ∧
      ¬ literal.toList <:+: "'a b'".toList := by
  have quoted : IsQuoted "'ab'".toList :=
    ⟨'\'', ['a', 'b'], .inl rfl, rfl, by simp; decide⟩
  have accepted : parse "'a b'" = .ok (resolved (.literal "'ab'")) :=
    parse_of_tokens [.other '\'', .word ['a'], .word ['b'], .other '\''] (by rfl) (by decide)
      (by simp) (.quoted quoted) (by decide)
  exact ⟨_, "'ab'", accepted, .whole, by decide⟩

end TypeExpr

end TypeStub
