import TypeStub.Proofs.TypeExpr.Bars
import TypeStub.Proofs.TypeExpr.Exposed

/-!
Contract: which types documentation writes so that they are read back.

Owns:
- `TypeExpr.Rereadable`, the condition on the type;
- `parse_toDoc_eq_resolved_iff`, which says that the condition is exact.

There are three ways to fail it. An atom spells the word `or`, which is a bar wherever it
stands. An ellipsis stands outside brackets, where it is a name without segments. A comma
or an open bracket of an argument, which parentheses hid when the type was read, meets the
division at commas.
-/

namespace TypeStub.TypeExpr

open Arguments (splitFrom)
open Node (flattenAll)
open Sequence (Spells)
open Token (ofText)

/-- Documentation of the type is read back as the type. -/
inductive Rereadable : TypeExpr → Prop
  | value {e : TypeExpr} (isValue : IsValue e) (noBar : AtomsSpellNoBar e)
      (notEllipsis : e ≠ .literal "...") : Rereadable e
  | generic {ctor : Generic} {arguments : List TypeExpr} (apart : StandApart arguments)
      (ofArguments : ∀ argument ∈ arguments, Rereadable argument) :
      Rereadable (.generic ctor arguments)
  | union {alternatives : List TypeExpr}
      (ofAlternatives : ∀ alternative ∈ alternatives, Rereadable alternative) :
      Rereadable (.union alternatives)

theorem Rereadable.atomsSpellNoBar {e : TypeExpr} (rereadable : Rereadable e) :
    AtomsSpellNoBar e := by
  induction rereadable with
  | value isValue noBar notEllipsis => exact noBar
  | generic apart ofArguments inductionHypothesis =>
      exact atomsSpellNoBar_generic.mpr inductionHypothesis
  | union ofAlternatives inductionHypothesis => exact atomsSpellNoBar_union.mpr inductionHypothesis

/-! ## What is rereadable is spelled by its own nodes -/

/-- Of all value expressions, only a name and the ellipsis are written as one word. -/
private theorem IsValue.eq_name_or_ellipsis {e : TypeExpr} (isValue : IsValue e)
    (inWord : ∀ c ∈ e.inlineText, Token.isWordChar c = true) :
    (∃ path, e = .name path) ∨ e = .literal "..." := by
  cases isValue with
  | @name path dotted => exact .inl ⟨path, rfl⟩
  | @number text digits =>
      rw [inlineText_literal] at inWord
      rw [not_isNumber_of_isWordChar inWord] at digits
      cases digits
  | @quoted text quoted =>
      obtain ⟨quote, body, isQuote, written, -⟩ := quoted
      rw [inlineText_literal, written] at inWord
      have ofQuote := inWord quote List.mem_cons_self
      rcases isQuote with rfl | rfl <;> cases ofQuote
  | @ellipsis text dots =>
      refine .inr (congrArg literal ?_)
      rw [← String.ofList_toList (s := text), dots]
      rfl
  | @subscript base arguments =>
      rw [inlineText_subscript] at inWord
      have ofBracket := inWord '[' (by simp)
      cases ofBracket

/-- A value expression is spelled by its own nodes, unless it is an ellipsis. -/
private theorem IsValue.spells_docNodes {e : TypeExpr} (isValue : IsValue e)
    (noBar : AtomsSpellNoBar e) (notEllipsis : e ≠ .literal "...") : Spells e.docNodes e := by
  have written := isValue.text_ofText noBar
  rw [isValue.docNodes_eq]
  by_cases single : ∃ word, ofText e.inlineText = [.word word]
  · obtain ⟨word, single⟩ := single
    have genuine : (Token.word word).IsGenuine :=
      @Token.isGenuine_of_mem_ofText e.inlineText _ (by simp [single])
    rw [single, List.flatMap_singleton, Token.text] at written
    rw [single]
    rcases isValue.eq_name_or_ellipsis (written ▸ genuine.2.1) with ⟨path, rfl⟩ | isEllipsis
    · cases isValue with
      | name dotted =>
          rw [inlineText_name] at written
          simp only [isDottedName, Bool.and_eq_true] at dotted
          have spelled := Spells.name dotted.1.1
          rw [String.ofList_toList, ← written] at spelled
          exact spelled
    · exact absurd isEllipsis notEllipsis
  · refine isValue.spells_tokens ?_ (fun word isWord => single ⟨word, isWord⟩) written
    intro present
    cases isValue.isPlain_ofText noBar _ present

/-- A type is spelled by its nodes as an alternative if it is by its nodes alone. -/
private theorem spells_nodesAsAlternative {e : TypeExpr} (spelled : Spells e.docNodes e) :
    Spells e.nodesAsAlternative e := by
  rw [nodesAsAlternative]
  split
  · exact .grouped spelled
  · exact spelled

theorem ofDocName_docName (ctor : Generic) : Generic.ofDocName? ctor.docName = some ctor := by
  cases ctor <;> decide

/-- A rereadable type is spelled by its own nodes. -/
theorem Rereadable.spells_docNodes {e : TypeExpr} (rereadable : Rereadable e)
    (wellFormed : WellFormed e) : Spells e.docNodes e := by
  induction rereadable with
  | value isValue noBar notEllipsis => exact isValue.spells_docNodes noBar notEllipsis
  | @generic ctor arguments apart ofArguments inductionHypothesis =>
      cases wellFormed with
      | value isValue => cases isValue
      | generic taken nonempty argumentsWellFormed =>
          have divided := split_joinArguments nonempty argumentsWellFormed
            (fun argument member => (ofArguments argument member).atomsSpellNoBar) apart
          have entries : ∀ entry ∈ arguments.map fun argument => (argument.docNodes, argument),
              Spells entry.1 entry.2 := by
            intro entry member
            obtain ⟨argument, inside, rfl⟩ := List.mem_map.mp member
            exact inductionHypothesis argument inside (argumentsWellFormed argument inside)
          have named : Generic.ofDocName? (String.ofList ctor.docName.toList) = some ctor := by
            rw [String.ofList_toList, ofDocName_docName]
          have spelled := @Spells.generic _ ctor (joinArguments (arguments.map docNodes)) _ named
            (by simpa using taken) (by rw [List.map_map]; exact divided) entries
          rw [List.map_map] at spelled
          rw [docNodes, docNodesOfAll_eq_map]
          simpa [Function.comp_def] using spelled
  | @union alternatives ofAlternatives inductionHypothesis =>
      cases wellFormed with
      | value isValue => cases isValue
      | union several alternativesWellFormed =>
          have entries : ∀ entry ∈
              alternatives.map fun alternative => (alternative.nodesAsAlternative, alternative),
              Spells entry.1 entry.2 ∧ ∀ node ∈ entry.1, node.isBar = false := by
            intro entry member
            obtain ⟨alternative, inside, rfl⟩ := List.mem_map.mp member
            have ofAlternative := alternativesWellFormed alternative inside
            exact ⟨spells_nodesAsAlternative (inductionHypothesis alternative inside ofAlternative),
              ofAlternative.noBar_nodesAsAlternative
                (ofAlternatives alternative inside).atomsSpellNoBar⟩
          have spelled := Spells.union (by simpa using several)
            (fun entry member => (entries entry member).2)
            (fun entry member => (entries entry member).1)
          rw [List.map_map, List.map_map] at spelled
          rw [docNodes, alternativeNodes_eq_map, joinAlternatives]
          simpa [Function.comp_def] using spelled

/-! ## What is spelled by its own nodes is rereadable -/

private theorem exists_spelled_arguments {word : List Char} {inner : List Node} {e : TypeExpr}
    (spelled : Spells [.token (.word word), .group inner] e) :
    ∀ piece ∈ splitFrom Node.token? 0 inner, ∃ argument, Spells piece argument := by
  have free : ∀ node ∈ [Node.token (.word word), .group inner], node.isBar = false := by
    simp [Node.isBar, Node.token?]
  rcases exists_shape_of_noBar spelled free with ⟨word, written, -⟩ | ⟨tokens, written, -, -⟩ |
    ⟨inner, written, -⟩ | ⟨word, inner, written, ofPieces⟩
  · cases written
  · exact absurd (written ▸ List.mem_cons_of_mem _ List.mem_cons_self)
      (@group_not_mem_map_token inner tokens)
  · cases written
  · cases written
    exact ofPieces

private theorem exists_spelled_inner {inner : List Node} {e : TypeExpr}
    (spelled : Spells [.group inner] e) : ∃ other, Spells inner other := by
  have free : ∀ node ∈ [Node.group inner], node.isBar = false := by simp [Node.isBar, Node.token?]
  rcases exists_shape_of_noBar spelled free with ⟨word, written, -⟩ | ⟨tokens, written, -, -⟩ |
    ⟨inner, written, ofInner⟩ | ⟨word, inner, written, -⟩
  · cases written
  · exact absurd (written ▸ List.mem_cons_self) (@group_not_mem_map_token inner tokens)
  · cases written
    exact ⟨e, ofInner⟩
  · cases written

/-- An ellipsis outside brackets is a name without segments, which is refused. -/
private theorem not_spells_ellipsis (other : TypeExpr) :
    ¬ Spells (docNodes (.literal "...")) other := by
  have nodes : docNodes (.literal "...") = [.token (.word ['.', '.', '.'])] := rfl
  rw [nodes]
  intro spelled
  rcases exists_shape_of_noBar spelled (by simp [Node.isBar, Node.token?]) with
    ⟨word, written, complete⟩ | ⟨tokens, written, several, -⟩ | ⟨inner, written, -⟩ |
    ⟨word, inner, written, -⟩
  · cases written
    exact absurd complete (by decide)
  · exact several ['.', '.', '.'] (map_token_injective written.symm)
  · cases written
  · cases written

/-- A type whose atoms spell no bar is rereadable as soon as its nodes spell anything. -/
theorem WellFormed.rereadable_of_spells {e other : TypeExpr} (wellFormed : WellFormed e)
    (noBar : AtomsSpellNoBar e) (spelled : Spells e.docNodes other) : Rereadable e := by
  induction wellFormed generalizing other with
  | value isValue =>
      refine .value isValue noBar ?_
      rintro rfl
      exact not_spells_ellipsis other spelled
  | @generic ctor arguments taken nonempty ofArguments inductionHypothesis =>
      rw [atomsSpellNoBar_generic] at noBar
      rw [docNodes, docNodesOfAll_eq_map] at spelled
      have pieces := exists_spelled_arguments spelled
      have apart := standApart_of_spelled ofArguments noBar pieces
      rw [split_joinArguments nonempty ofArguments noBar apart] at pieces
      refine .generic apart ?_
      intro argument member
      obtain ⟨found, ofArgument⟩ := pieces _ (List.mem_map_of_mem member)
      exact inductionHypothesis argument member (noBar argument member) ofArgument
  | @union alternatives several ofAlternatives inductionHypothesis =>
      rw [atomsSpellNoBar_union] at noBar
      rw [docNodes, alternativeNodes_eq_map, joinAlternatives] at spelled
      have nonempty : alternatives.map nodesAsAlternative ≠ [] := by
        intro empty
        rw [List.map_eq_nil_iff.mp empty] at several
        simp at several
      have free : ∀ piece ∈ alternatives.map nodesAsAlternative, ∀ node ∈ piece,
          node.isBar = false := by
        intro piece inPieces
        obtain ⟨alternative, inside, rfl⟩ := List.mem_map.mp inPieces
        exact (ofAlternatives alternative inside).noBar_nodesAsAlternative
          (noBar alternative inside)
      refine .union ?_
      intro alternative member
      obtain ⟨found, ofPiece⟩ := @exists_spelled_part _ _ spelled alternative.nodesAsAlternative (by
        rw [Intercalate.splitOnP_intercalate Node.isBar_bar nonempty free]
        exact List.mem_map_of_mem member)
      rw [nodesAsAlternative] at ofPiece
      split at ofPiece
      · obtain ⟨inner, ofInner⟩ := exists_spelled_inner ofPiece
        exact inductionHypothesis alternative member (noBar alternative member) ofInner
      · exact inductionHypothesis alternative member (noBar alternative member) ofPiece

/-- Documentation of a well-formed type is read back as the type, with its namespaces,
exactly if the type is rereadable. -/
theorem WellFormed.parse_toDoc_eq_resolved_iff {e : TypeExpr} (wellFormed : WellFormed e) :
    parse e.toDoc = .ok e.resolved ↔ Rereadable e := by
  rw [wellFormed.parse_toDoc_eq_ok_iff]
  constructor
  · rintro ⟨other, spelled, same⟩
    have equal : e = other := congrArg Resolved.value same
    rw [← equal] at spelled
    exact wellFormed.rereadable_of_spells (wellFormed.atomsSpellNoBar_of_spells spelled) spelled
  · intro rereadable
    exact ⟨e, rereadable.spells_docNodes wellFormed, rfl⟩

end TypeStub.TypeExpr
