import TypeStub.Proofs.TypeExpr.Grammar
import TypeStub.TypeExpr.Printer

/-!
Contract: what documentation writes for a type, as the nodes that the reader sees.

Owns:
- `TypeExpr.docNodes`, the nodes of the documentation text of a type;
- that the text of a well-formed type is grouped to them, so that reading it is a question
  about the grammar (`parse_toDoc_eq_ok_iff`);
- that the only white space in that text are spaces.

Does not own: which types are spelled by their own nodes (`TypeStub.Proofs.TypeExpr.Reread`).
-/

namespace TypeStub.TypeExpr

open Node (flattenAll)
open Sequence (Spells)
open Token (ofText)

/-- Pieces with a comma between neighbours. -/
def joinArguments (pieces : List (List Node)) : List Node :=
  [Node.token (.other ',')].intercalate pieces

/-- Pieces with a bar between neighbours. -/
def joinAlternatives (pieces : List (List Node)) : List Node :=
  [Node.token .bar].intercalate pieces

mutual

/-- The nodes of a type's documentation. -/
def docNodes : TypeExpr → List Node
  | .name path => (ofText path.toList).map .token
  | .literal text => (ofText text.toList).map .token
  | .generic ctor arguments =>
      [.token (.word ctor.docName.toList), .group (joinArguments (docNodesOfAll arguments))]
  | .union alternatives => joinAlternatives (alternativeNodes alternatives)
  | .subscript base arguments => (ofText (inlineText (.subscript base arguments))).map .token

/-- The nodes of each type's documentation. -/
def docNodesOfAll : List TypeExpr → List (List Node)
  | [] => []
  | head :: tail => docNodes head :: docNodesOfAll tail

/-- The nodes of each alternative; one that is itself a choice is a group. -/
def alternativeNodes : List TypeExpr → List (List Node)
  | [] => []
  | head :: tail =>
      (if head.isUnion then [.group (docNodes head)] else docNodes head) :: alternativeNodes tail

end

/-- The nodes of a type where it is an alternative. -/
def nodesAsAlternative (e : TypeExpr) : List Node :=
  if e.isUnion then [.group e.docNodes] else e.docNodes

theorem docNodesOfAll_eq_map (types : List TypeExpr) :
    docNodesOfAll types = types.map docNodes := by
  induction types with
  | nil => rfl
  | cons head tail inductionHypothesis => simp [docNodesOfAll, inductionHypothesis]

theorem alternativeNodes_eq_map (types : List TypeExpr) :
    alternativeNodes types = types.map nodesAsAlternative := by
  induction types with
  | nil => rfl
  | cons head tail inductionHypothesis =>
      rw [alternativeNodes, inductionHypothesis, List.map_cons, nodesAsAlternative]

/-- The text of a type where it is an alternative. -/
def textAsAlternative (e : TypeExpr) : List Char :=
  if e.isUnion then '(' :: (e.docText ++ [')']) else e.docText

theorem alternativeTexts_eq_map (types : List TypeExpr) :
    alternativeTexts types = types.map textAsAlternative := by
  induction types with
  | nil => rfl
  | cons head tail inductionHypothesis =>
      rw [alternativeTexts, inductionHypothesis, List.map_cons, textAsAlternative]

theorem IsValue.docNodes_eq {e : TypeExpr} (isValue : IsValue e) :
    e.docNodes = (ofText e.inlineText).map .token := by
  cases isValue with
  | name => rw [docNodes, inlineText_name]
  | number => rw [docNodes, inlineText_literal]
  | quoted => rw [docNodes, inlineText_literal]
  | ellipsis => rw [docNodes, inlineText_literal]
  | subscript => rw [docNodes]

theorem IsValue.not_isUnion {e : TypeExpr} (isValue : IsValue e) : e.isUnion = false := by
  cases isValue <;> rfl

/-! ## The tokens of the text -/

theorem flattenAll_intercalate (separator : List Node) (pieces : List (List Node)) :
    flattenAll (separator.intercalate pieces) =
      (flattenAll separator).intercalate (pieces.map flattenAll) := by
  induction pieces with
  | nil => rfl
  | cons head tail inductionHypothesis =>
      cases tail with
      | nil => simp
      | cons second others =>
          rw [List.intercalate_cons_cons, Node.flattenAll_append, Node.flattenAll_append,
            inductionHypothesis]
          simp [List.intercalate_cons_cons]

private theorem ofText_parentheses (front inner : List Char) :
    ofText (front ++ '(' :: (inner ++ [')'])) =
      ofText front ++ .opening :: (ofText inner ++ [.closing]) := by
  rw [Token.ofText_append_mark (by decide), Token.ofText_append_mark (by decide)]
  rfl

theorem ofText_docName (ctor : Generic) :
    ofText ctor.docName.toList = [.word ctor.docName.toList] := by
  cases ctor <;> rfl

private theorem ofText_textAsAlternative {e : TypeExpr}
    (whole : ofText e.docText = flattenAll e.docNodes) :
    ofText (textAsAlternative e) = flattenAll (nodesAsAlternative e) := by
  rw [textAsAlternative, nodesAsAlternative]
  by_cases isUnion : e.isUnion = true
  · have grouped := ofText_parentheses [] e.docText
    rw [List.nil_append] at grouped
    rw [if_pos isUnion, if_pos isUnion, grouped, whole]
    simp [flattenAll, Node.flatten, ofText, Token.scan, Token.ofRun]
  · rw [if_neg isUnion, if_neg isUnion, whole]

/-- The tokens of documentation are those of its nodes. -/
theorem WellFormed.ofText_docText {e : TypeExpr} (wellFormed : WellFormed e) :
    ofText e.docText = flattenAll e.docNodes := by
  induction wellFormed with
  | @value e isValue =>
      rw [isValue.ofText_docText, isValue.docNodes_eq, Node.flattenAll_map_token]
  | @generic ctor arguments taken nonempty ofArguments inductionHypothesis =>
      have inner : ofText (commaSeparated (docTexts arguments)) =
          flattenAll (joinArguments (docNodesOfAll arguments)) := by
        rw [commaSeparated, Token.separates_comma_space.ofText_intercalate, docTexts_eq_map,
          docNodesOfAll_eq_map, joinArguments, flattenAll_intercalate, List.map_map, List.map_map]
        exact congrArg _ (List.map_congr_left inductionHypothesis)
      rw [docText, ofText_parentheses, ofText_docName, inner, docNodes]
      simp [flattenAll, Node.flatten]
  | @union alternatives several ofAlternatives inductionHypothesis =>
      rw [docText, Token.separates_or.ofText_intercalate, alternativeTexts_eq_map, docNodes,
        alternativeNodes_eq_map, joinAlternatives, flattenAll_intercalate, List.map_map,
        List.map_map]
      refine congrArg _ (List.map_congr_left ?_)
      intro alternative member
      exact ofText_textAsAlternative (inductionHypothesis alternative member)

/-! ## The characters of the text -/

/-- The text has no white space but spaces. -/
def OnlySpaces (text : List Char) : Prop :=
  ∀ c ∈ text, Text.isBlank c = true → c = ' '

instance (text : List Char) : Decidable (OnlySpaces text) :=
  List.decidableBAll (fun c => Text.isBlank c = true → c = ' ') text

theorem onlySpaces_of_isInline {text : List Char}
    (plain : ∀ c ∈ text, isInline c = true) : OnlySpaces text := by
  intro c member blank
  have inLine := plain c member
  simp [isInline, blank] at inLine

theorem onlySpaces_append {left right : List Char} (ofLeft : OnlySpaces left)
    (ofRight : OnlySpaces right) : OnlySpaces (left ++ right) := by
  intro c member
  rcases List.mem_append.mp member with inLeft | inRight
  · exact ofLeft c inLeft
  · exact ofRight c inRight

private theorem onlySpaces_enclosed {opening closing : Char} {inner : List Char}
    (marks : OnlySpaces [opening, closing]) (ofInner : OnlySpaces inner) :
    OnlySpaces (opening :: (inner ++ [closing])) := by
  intro c member
  rcases List.mem_cons.mp member with rfl | later
  · exact marks c List.mem_cons_self
  rcases List.mem_append.mp later with inside | atEnd
  · exact ofInner c inside
  · exact marks c (List.mem_cons_of_mem _ atEnd)

private theorem onlySpaces_commaSeparated {types : List TypeExpr}
    (single : ∀ e ∈ types, OnlySpaces e.docText) :
    OnlySpaces (commaSeparated (docTexts types)) := by
  have ofSeparator : OnlySpaces [',', ' '] := by decide
  rw [docTexts_eq_map]
  refine Intercalate.forall_mem _ ofSeparator ?_
  intro text member
  obtain ⟨e, inside, rfl⟩ := List.mem_map.mp member
  exact single e inside

private theorem IsValue.onlySpaces_docText {e : TypeExpr} (isValue : IsValue e) :
    OnlySpaces e.docText := by
  have plain := isValue.isInline_inlineText
  induction isValue with
  | name =>
      rw [inlineText_name] at plain
      exact onlySpaces_of_isInline plain
  | number =>
      rw [inlineText_literal] at plain
      exact onlySpaces_of_isInline plain
  | quoted =>
      rw [inlineText_literal] at plain
      exact onlySpaces_of_isInline plain
  | ellipsis =>
      rw [inlineText_literal] at plain
      exact onlySpaces_of_isInline plain
  | @subscript base arguments ofBase nonempty ofArguments baseHypothesis inductionHypothesis =>
      have inArguments := onlySpaces_commaSeparated fun argument member =>
        inductionHypothesis argument member (ofArguments argument member).isInline_inlineText
      exact onlySpaces_append (baseHypothesis ofBase.isInline_inlineText)
        (onlySpaces_enclosed (by decide) inArguments)

/-- Documentation of a well-formed type is written in one line, without tabs. -/
theorem WellFormed.onlySpaces_docText {e : TypeExpr} (wellFormed : WellFormed e) :
    OnlySpaces e.docText := by
  induction wellFormed with
  | value isValue => exact isValue.onlySpaces_docText
  | @generic ctor arguments taken nonempty ofArguments inductionHypothesis =>
      have inName : OnlySpaces ctor.docName.toList := by cases ctor <;> decide
      exact onlySpaces_append inName
        (onlySpaces_enclosed (by decide) (onlySpaces_commaSeparated inductionHypothesis))
  | @union alternatives several ofAlternatives inductionHypothesis =>
      have ofSeparator : OnlySpaces [' ', 'o', 'r', ' '] := by decide
      rw [docText, alternativeTexts_eq_map]
      refine Intercalate.forall_mem _ ofSeparator ?_
      intro text member
      obtain ⟨alternative, inside, rfl⟩ := List.mem_map.mp member
      rw [textAsAlternative]
      split
      · exact onlySpaces_enclosed (by decide) (inductionHypothesis alternative inside)
      · exact inductionHypothesis alternative inside

/-! ## The nodes of the text -/

theorem isGrouped_ofText {text : List Char} (plain : ∀ c ∈ text, isInline c = true) :
    ∀ node ∈ (ofText text).map Node.token, Node.IsGrouped node := by
  intro node member
  obtain ⟨single, inText, rfl⟩ := List.mem_map.mp member
  refine .token ?_ ?_
  · rintro rfl
    have present := Token.mem_of_mem_text inText (by simp) (c := '(') List.mem_cons_self
    exact absurd (plain '(' present) (by decide)
  · rintro rfl
    have present := Token.mem_of_mem_text inText (by simp) (c := ')') List.mem_cons_self
    exact absurd (plain ')' present) (by decide)

private theorem isGrouped_separator {single : Token} (notOpening : single ≠ .opening)
    (notClosing : single ≠ .closing) :
    ∀ node ∈ [Node.token single], Node.IsGrouped node := by
  intro node member
  rw [List.mem_singleton.mp member]
  exact .token notOpening notClosing

theorem WellFormed.isGrouped_docNodes {e : TypeExpr} (wellFormed : WellFormed e) :
    ∀ node ∈ e.docNodes, Node.IsGrouped node := by
  induction wellFormed with
  | @value e isValue =>
      rw [isValue.docNodes_eq]
      exact isGrouped_ofText isValue.isInline_inlineText
  | @generic ctor arguments taken nonempty ofArguments inductionHypothesis =>
      have inner : ∀ node ∈ joinArguments (docNodesOfAll arguments), Node.IsGrouped node := by
        refine Intercalate.forall_mem _ (isGrouped_separator (by simp) (by simp)) ?_
        intro piece member
        rw [docNodesOfAll_eq_map] at member
        obtain ⟨argument, inside, rfl⟩ := List.mem_map.mp member
        exact inductionHypothesis argument inside
      intro node member
      rw [docNodes] at member
      rcases List.mem_cons.mp member with rfl | member
      · exact .token (by simp) (by simp)
      · rw [List.mem_singleton.mp member]
        exact .group inner
  | @union alternatives several ofAlternatives inductionHypothesis =>
      rw [docNodes]
      refine Intercalate.forall_mem _ (isGrouped_separator (by simp) (by simp)) ?_
      intro piece member
      rw [alternativeNodes_eq_map] at member
      obtain ⟨alternative, inside, rfl⟩ := List.mem_map.mp member
      rw [nodesAsAlternative]
      split
      · intro node present
        rw [List.mem_singleton.mp present]
        exact .group (inductionHypothesis alternative inside)
      · exact inductionHypothesis alternative inside

/-- The documentation of a well-formed type is read exactly if its nodes spell something. -/
theorem WellFormed.parse_toDoc_eq_ok_iff {e : TypeExpr} (wellFormed : WellFormed e)
    {result : Resolved TypeExpr} :
    parse e.toDoc = .ok result ↔ ∃ other, Spells e.docNodes other ∧ result = other.resolved := by
  have grouped : Node.ofTokens (ofText e.toDoc.toList) = .ok e.docNodes := by
    rw [toDoc, String.toList_ofList, wellFormed.ofText_docText]
    exact Node.ofTokens_flattenAll wellFormed.isGrouped_docNodes
  rw [parse_eq_ok_iff, grouped]
  simp

end TypeStub.TypeExpr
