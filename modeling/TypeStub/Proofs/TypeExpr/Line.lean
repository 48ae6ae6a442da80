import TypeStub.Proofs.TypeExpr.Spelling

/-!
Contract: what a type contributes to a stub stays in its line.

Owns:
- that subtrees of well-formed types are well formed;
- that neither the text of such a type in a stub nor a namespace that it refers to has a line
  feed.
-/

namespace TypeStub.TypeExpr

theorem IsValue.of_within {part e : TypeExpr} (isValue : IsValue e) (inside : Within part e) :
    IsValue part := by
  induction inside with
  | whole => exact isValue
  | argument member inside inductionHypothesis => cases isValue
  | alternative member inside inductionHypothesis => cases isValue
  | base inside inductionHypothesis =>
      cases isValue with
      | subscript ofBase nonempty ofArguments => exact inductionHypothesis ofBase
  | index member inside inductionHypothesis =>
      cases isValue with
      | subscript ofBase nonempty ofArguments =>
          exact inductionHypothesis (ofArguments _ member)

theorem WellFormed.of_within {part e : TypeExpr} (wellFormed : WellFormed e)
    (inside : Within part e) : WellFormed part := by
  induction inside with
  | whole => exact wellFormed
  | argument member inside inductionHypothesis =>
      cases wellFormed with
      | value isValue => cases isValue
      | generic taken nonempty ofArguments => exact inductionHypothesis (ofArguments _ member)
  | alternative member inside inductionHypothesis =>
      cases wellFormed with
      | value isValue => cases isValue
      | union several ofAlternatives => exact inductionHypothesis (ofAlternatives _ member)
  | base inside inductionHypothesis =>
      cases wellFormed with
      | value isValue => exact .value (isValue.of_within (.base inside))
  | index member inside inductionHypothesis =>
      cases wellFormed with
      | value isValue => exact .value (isValue.of_within (.index member inside))

/-! ## Text -/

private theorem ne_feed_of_isInline {c : Char} (plain : isInline c = true) : c ≠ '\n' := by
  rintro rfl
  exact absurd plain (by decide)

private theorem feed_not_mem_commaSeparated {types : List TypeExpr}
    (single : ∀ e ∈ types, '\n' ∉ e.stubText) : '\n' ∉ commaSeparated (stubTexts types) := by
  intro member
  rw [stubTexts_eq_map] at member
  rcases Intercalate.mem_or_mem member with inSeparator | ⟨text, inTexts, inside⟩
  · simp at inSeparator
  · obtain ⟨e, inTypes, rfl⟩ := List.mem_map.mp inTexts
    exact single e inTypes inside

private theorem IsValue.feed_not_mem_stubText {e : TypeExpr} (isValue : IsValue e) :
    '\n' ∉ e.stubText := by
  have plain := isValue.isInline_inlineText
  induction isValue with
  | name =>
      rw [inlineText_name] at plain
      exact fun member => ne_feed_of_isInline (plain '\n' member) rfl
  | number =>
      rw [inlineText_literal] at plain
      exact fun member => ne_feed_of_isInline (plain '\n' member) rfl
  | quoted =>
      rw [inlineText_literal] at plain
      exact fun member => ne_feed_of_isInline (plain '\n' member) rfl
  | ellipsis =>
      rw [inlineText_literal] at plain
      exact fun member => ne_feed_of_isInline (plain '\n' member) rfl
  | @subscript base arguments ofBase nonempty ofArguments baseHypothesis inductionHypothesis =>
      have inBase := baseHypothesis ofBase.isInline_inlineText
      have inArguments := feed_not_mem_commaSeparated fun argument member =>
        inductionHypothesis argument member (ofArguments argument member).isInline_inlineText
      simp [stubText, inBase, inArguments]

/-- A stub writes a well-formed type in one line. -/
theorem WellFormed.feed_not_mem_stubText {e : TypeExpr} (wellFormed : WellFormed e) :
    '\n' ∉ e.stubText := by
  induction wellFormed with
  | value isValue => exact isValue.feed_not_mem_stubText
  | @generic ctor arguments taken nonempty ofArguments inductionHypothesis =>
      have inName : '\n' ∉ ctor.stubName.toList := by cases ctor <;> decide
      have inArguments := feed_not_mem_commaSeparated inductionHypothesis
      simp [stubText, inName, inArguments]
  | @union alternatives several ofAlternatives inductionHypothesis =>
      rw [stubText, stubTexts_eq_map]
      intro member
      rcases Intercalate.mem_or_mem member with inSeparator | ⟨text, inTexts, inside⟩
      · simp at inSeparator
      · obtain ⟨alternative, inAlternatives, rfl⟩ := List.mem_map.mp inTexts
        exact inductionHypothesis alternative inAlternatives inside

/-! ## Namespaces -/

private theorem feed_not_mem_segment {path name : String} (dotted : isDottedName path.toList = true)
    (begins : DottedFrom name path) : '\n' ∉ name.toList := by
  simp only [isDottedName, Bool.and_eq_true] at dotted
  obtain ⟨second, later, segments⟩ := begins
  have isSegment : name.toList ∈ path.toList.splitOn '.' := by
    rw [show path.toList.splitOn '.' = Dotted.segments path.toList from rfl, segments]
    exact List.mem_cons_self
  rw [List.splitOn_eq_splitOnP] at isSegment
  intro member
  have inPath := Intercalate.mem_of_mem_splitOnP isSegment '\n' member
  exact absurd (List.all_eq_true.mp dotted.1.2 '\n' inPath) (by decide)

/-- The namespaces of a well-formed type are written in one line each. -/
theorem WellFormed.feed_not_mem_namespace {e : TypeExpr} (wellFormed : WellFormed e)
    {name : String} (member : name ∈ e.namespaces) : '\n' ∉ name.toList := by
  rcases mem_namespaces.mp member with ⟨path, inside, begins⟩ | ⟨isTyping, -⟩
  · cases wellFormed.of_within inside with
    | value isValue =>
        cases isValue with
        | name dotted => exact feed_not_mem_segment dotted begins
  · rw [isTyping]
    decide

end TypeStub.TypeExpr
