import TypeStub.Proofs.TypeExpr.Reread

/-!
Contract: dotted names by their segments, and the texts that are read as one name.

Owns:
- `TypeExpr.isSegment` and `TypeExpr.isIdentifier`, what stands between the dots of a name;
- `TypeExpr.isDottedName_iff`, that a dotted name is an identifier and perhaps segments behind it;
- `TypeExpr.parse_joinSegments_iff`, which identifiers with dots between them are read as names;
- `Sequence.ofWord_agrees_iff`, which words are read alike alone and as a value expression.

Each of the two has an exception. Digits and underscores divide an identifier into runs of
letters and dots, and a run that is the word `or` is a bar. Three dots are a value expression,
but as one word they are a name without segments.
-/

namespace TypeStub

/-! ## Segments -/

namespace TypeExpr

open Token (ofText SpellsNoBar)

/-- A character of segments. -/
def isSegmentPart (c : Char) : Bool :=
  c.isAlphanum || c == '_'

/-- Letters, digits and underscores between the dots of a name. -/
def isSegment (segment : List Char) : Bool :=
  !segment.isEmpty && segment.all isSegmentPart

/-- A segment that begins with no digit. -/
def isIdentifier : List Char → Bool
  | [] => false
  | c :: rest => Value.startsIdentifier c && rest.all isSegmentPart

/-- Segments with a dot between neighbours. -/
def joinSegments (segments : List (List Char)) : List Char :=
  ['.'].intercalate segments

/-- The namespace that a name of these segments refers to: the first one, if others follow. -/
def namespaceOfSegments : List (List Char) → NameSet
  | first :: _ :: _ => .ofList [String.ofList first]
  | _ => ∅

theorem isSegmentPart_iff {c : Char} :
    isSegmentPart c = true ↔ Value.isIdentifierPart c = true ∧ c ≠ '.' := by
  rw [Value.isIdentifierPart, Bool.or_eq_true, ← isSegmentPart, beq_iff_eq]
  constructor
  · intro part
    refine ⟨.inl part, ?_⟩
    rintro rfl
    exact absurd part (by decide)
  · rintro ⟨part | isDot, notDot⟩
    · exact part
    · exact absurd isDot notDot

theorem isSegment_iff {segment : List Char} :
    isSegment segment = true ↔ segment ≠ [] ∧ ∀ c ∈ segment, isSegmentPart c = true := by
  simp [isSegment]

theorem isIdentifier_iff {segment : List Char} :
    isIdentifier segment = true ↔
      isSegment segment = true ∧ segment.head?.any Value.startsIdentifier = true := by
  cases segment with
  | nil => simp [isIdentifier, isSegment]
  | cons c rest =>
      have begins : Value.startsIdentifier c = true → isSegmentPart c = true := by
        intro start
        refine isSegmentPart_iff.mpr ⟨Value.isIdentifierPart_of_start start, ?_⟩
        rintro rfl
        cases start
      rw [isIdentifier, isSegment_iff, List.head?_cons, Option.any_some, Bool.and_eq_true,
        List.all_eq_true, List.forall_mem_cons]
      constructor
      · rintro ⟨start, parts⟩
        exact ⟨⟨List.cons_ne_nil c rest, begins start, parts⟩, start⟩
      · rintro ⟨⟨-, -, parts⟩, start⟩
        exact ⟨start, parts⟩

/-- A name of these segments has no others. -/
theorem segments_joinSegments {segments : List (List Char)} (nonempty : segments ≠ [])
    (ofSegments : ∀ segment ∈ segments, isSegment segment = true) :
    Dotted.segments (joinSegments segments) = segments := by
  refine List.splitOn_intercalate '.' ?_ nonempty
  intro segment member inside
  exact (isSegmentPart_iff.mp ((isSegment_iff.mp (ofSegments segment member)).2 '.' inside)).2 rfl

theorem joinSegments_segments (path : List Char) :
    joinSegments (Dotted.segments path) = path :=
  List.intercalate_splitOn '.'

theorem namespaceOf_joinSegments {segments : List (List Char)} (nonempty : segments ≠ [])
    (ofSegments : ∀ segment ∈ segments, isSegment segment = true) :
    Dotted.namespaceOf (joinSegments segments) = namespaceOfSegments segments := by
  rw [Dotted.namespaceOf, segments_joinSegments nonempty ofSegments]
  rfl

/-- Every character of joined segments is a dot or a character of a segment. -/
private theorem isIdentifierPart_joinSegments {segments : List (List Char)}
    (ofSegments : ∀ segment ∈ segments, isSegment segment = true) :
    ∀ c ∈ joinSegments segments, Value.isIdentifierPart c = true := by
  refine Intercalate.forall_mem _ (List.all_eq_true.mp (by decide)) ?_
  intro segment member c inside
  exact (isSegmentPart_iff.mp ((isSegment_iff.mp (ofSegments segment member)).2 c inside)).1

private theorem head?_joinSegments {first : List Char} (nonempty : first ≠ [])
    (later : List (List Char)) : (joinSegments (first :: later)).head? = first.head? := by
  obtain ⟨c, rest, rfl⟩ := List.exists_cons_of_ne_nil nonempty
  cases later <;> simp [joinSegments, List.intercalate_cons_cons]

private theorem isSegment_of_mem_segments {path : List Char}
    (complete : Dotted.isComplete path = true) (parts : path.all Value.isIdentifierPart = true)
    {segment : List Char} (member : segment ∈ Dotted.segments path) :
    isSegment segment = true := by
  have nonempty : segment ≠ [] := by
    simpa using List.all_eq_true.mp complete segment member
  rw [Dotted.segments, List.splitOn_eq_splitOnP] at member
  refine isSegment_iff.mpr ⟨nonempty, fun c inside => isSegmentPart_iff.mpr ⟨?_, ?_⟩⟩
  · exact List.all_eq_true.mp parts c (Intercalate.mem_of_mem_splitOnP member c inside)
  · simpa using Intercalate.free_of_mem_splitOnP member c inside

/-- A dotted name is an identifier, perhaps with segments behind it. -/
theorem isDottedName_iff {path : List Char} :
    isDottedName path = true ↔ ∃ first later, path = joinSegments (first :: later) ∧
      isIdentifier first = true ∧ ∀ segment ∈ later, isSegment segment = true := by
  rw [isDottedName, Bool.and_eq_true, Bool.and_eq_true]
  constructor
  · rintro ⟨⟨complete, parts⟩, start⟩
    obtain ⟨first, later, divided⟩ :=
      List.exists_cons_of_ne_nil (List.splitOnP_ne_nil (· == '.') path)
    rw [← List.splitOn_eq_splitOnP] at divided
    have written : path = joinSegments (first :: later) := by
      rw [← divided]
      exact (joinSegments_segments path).symm
    have ofSegments : ∀ segment ∈ first :: later, isSegment segment = true := by
      rw [← divided]
      exact fun segment => isSegment_of_mem_segments complete parts
    have ofFirst := ofSegments first List.mem_cons_self
    refine ⟨first, later, written, isIdentifier_iff.mpr ⟨ofFirst, ?_⟩,
      fun segment member => ofSegments segment (List.mem_cons_of_mem first member)⟩
    rw [← head?_joinSegments (isSegment_iff.mp ofFirst).1 later, ← written]
    exact start
  · rintro ⟨first, later, rfl, ofFirst, ofLater⟩
    obtain ⟨firstSegment, start⟩ := isIdentifier_iff.mp ofFirst
    have ofSegments : ∀ segment ∈ first :: later, isSegment segment = true :=
      List.forall_mem_cons.mpr ⟨firstSegment, ofLater⟩
    refine ⟨⟨?_, List.all_eq_true.mpr (isIdentifierPart_joinSegments ofSegments)⟩, ?_⟩
    · rw [Dotted.isComplete, segments_joinSegments (List.cons_ne_nil first later) ofSegments,
        List.all_eq_true]
      intro segment member
      simpa using (isSegment_iff.mp (ofSegments segment member)).1
    · rw [head?_joinSegments (isSegment_iff.mp firstSegment).1]
      exact start

/-! ## Names that are read -/

/-- Inline text has no parentheses, so that its tokens are its nodes. -/
theorem ofTokens_of_isInline {text : List Char} (plain : ∀ c ∈ text, isInline c = true) :
    Node.ofTokens (ofText text) = .ok ((ofText text).map .token) := by
  have grouped := Node.ofTokens_flattenAll (isGrouped_ofText plain)
  rwa [Node.flattenAll_map_token] at grouped

/-- Inline text that spells a bar is read as a choice, if it is read at all. -/
theorem isUnion_of_bar {text : String} {found : Resolved TypeExpr}
    (plain : ∀ c ∈ text.toList, isInline c = true) (bar : ¬ SpellsNoBar text.toList)
    (accepted : parse text = .ok found) : found.value.isUnion = true := by
  obtain ⟨nodes, e, grouping, spelled, rfl⟩ := parse_eq_ok_iff.mp accepted
  rw [ofTokens_of_isInline plain] at grouping
  cases grouping
  have present : Node.token .bar ∈ (ofText text.toList).map Node.token :=
    List.mem_map_of_mem ((Token.bar_mem_ofText plain).mpr bar)
  generalize (ofText text.toList).map Node.token = nodes at spelled present
  cases spelled with
  | union several noBar ofAlternatives => rfl
  | value noBar several parsed =>
      obtain ⟨single, inside, isBar⟩ := List.mem_map.mp present
      cases isBar
      exact absurd inside noBar
  | name complete => simp at present
  | generic named taken divided ofArguments => simp at present
  | grouped ofInner => simp at present

theorem rereadable_name_iff {path : String} (dotted : isDottedName path.toList = true) :
    Rereadable (.name path) ↔ SpellsNoBar path.toList := by
  constructor
  · intro rereadable
    exact rereadable.atomsSpellNoBar path (.inl .whole)
  · intro noBar
    refine .value (.name dotted) ?_ (by simp)
    simpa [AtomsSpellNoBar, within_name, within_literal] using noBar

/-- Identifiers with dots between them are read as that name exactly if none of their runs of
letters and dots is the word `or`. Others are refused or read as a choice, never as a name. -/
theorem parse_joinSegments_iff {segments : List (List Char)} (nonempty : segments ≠ [])
    (identifiers : ∀ segment ∈ segments, isIdentifier segment = true) :
    (parse (String.ofList (joinSegments segments)) =
        .ok ⟨.name (String.ofList (joinSegments segments)), namespaceOfSegments segments⟩ ↔
      SpellsNoBar (joinSegments segments)) ∧
    (¬ SpellsNoBar (joinSegments segments) →
      ∀ found, parse (String.ofList (joinSegments segments)) = .ok found →
        found.value.isUnion = true) := by
  have ofSegments : ∀ segment ∈ segments, isSegment segment = true :=
    fun segment member => (isIdentifier_iff.mp (identifiers segment member)).1
  have dotted : isDottedName (joinSegments segments) = true := by
    obtain ⟨first, later, rfl⟩ := List.exists_cons_of_ne_nil nonempty
    exact isDottedName_iff.mpr ⟨first, later, rfl, identifiers first List.mem_cons_self,
      fun segment member => ofSegments segment (List.mem_cons_of_mem first member)⟩
  have required := namespaceOf_joinSegments nonempty ofSegments
  generalize written : String.ofList (joinSegments segments) = path
  have chars : path.toList = joinSegments segments := by
    rw [← written, String.toList_ofList]
  rw [← chars] at dotted required ⊢
  constructor
  · have isName : WellFormed (.name path) := .value (.name dotted)
    have inDoc : toDoc (.name path) = path := String.ofList_toList
    rw [← rereadable_name_iff dotted, ← isName.parse_toDoc_eq_resolved_iff, inDoc, resolved,
      namespaces, required]
  · intro bar found accepted
    refine isUnion_of_bar ?_ bar accepted
    simpa using (IsValue.name dotted).isInline_inlineText

/-- Letters, digits, underscores and dots in one name, which refers to its first segment. -/
theorem parse_joinSegments_iff_qualified :
    (∀ segment ∈ ["my_mod".toList, "Type_2".toList, "order".toList],
      isIdentifier segment = true) ∧
      SpellsNoBar "my_mod.Type_2.order".toList ∧
      parse "my_mod.Type_2.order" = .ok ⟨.name "my_mod.Type_2.order", .ofList ["my_mod"]⟩ := by
  have identifiers : ∀ segment ∈ ["my_mod".toList, "Type_2".toList, "order".toList],
      isIdentifier segment = true := by decide
  have noBar : SpellsNoBar "my_mod.Type_2.order".toList := by decide
  exact ⟨identifiers, noBar, (parse_joinSegments_iff (by simp) identifiers).1.mpr noBar⟩

/-- An identifier with the word `or` between underscores is read as a choice of two names. -/
theorem parse_identifier_with_or :
    isIdentifier "value_or_none".toList = true ∧
      parse "value_or_none" = .ok ⟨.union [.name "value_", .name "_none"], ∅⟩ := by
  have ofFront : Sequence.Spells [.token (.word "value".toList), .token (.other '_')]
      (.name "value_") :=
    @IsValue.spells_tokens _ (.name (by decide)) [.word "value".toList, .other '_'] (by decide)
      (by simp) (by decide)
  have ofBack : Sequence.Spells [.token (.other '_'), .token (.word "none".toList)]
      (.name "_none") :=
    @IsValue.spells_tokens _ (.name (by decide)) [.other '_', .word "none".toList] (by decide)
      (by simp) (by decide)
  have spelled := @Sequence.Spells.union
    [([.token (.word "value".toList), .token (.other '_')], .name "value_"),
      ([.token (.other '_'), .token (.word "none".toList)], .name "_none")]
    (by decide) (by simp [Node.isBar, Node.token?]) (by simpa using ⟨ofFront, ofBack⟩)
  exact ⟨by decide, parse_eq_ok_iff.mpr ⟨_, _, by rfl, spelled, rfl⟩⟩

end TypeExpr

/-! ## Words standing alone -/

namespace Value

open TypeExpr (ellipsis)

/-- Of all value expressions, only complete names and the ellipsis consist of letters and
dots. -/
private theorem exists_of_parse_word {word : List Char}
    (inWord : ∀ c ∈ word, Token.isWordChar c = true) {found : Resolved TypeExpr}
    (accepted : parse word = .ok found) :
    (Dotted.isComplete word = true ∧ found = Dotted.resolve word) ∨
      (word = ellipsis ∧ found = ⟨.literal "...", ∅⟩) := by
  unfold parse at accepted
  split at accepted
  · cases accepted
  rename_i lexemes divided
  obtain ⟨written, genuine⟩ := text_of_lex divided
  obtain ⟨value, required⟩ := found
  have derived : Spells lexemes value ∧ required = value.namespaces := read_eq_ok_iff.mp accepted
  obtain ⟨spelled, rfl⟩ := derived
  cases spelled with
  | @name text complete =>
      have same : text = word := by simpa [Lexeme.text] using written
      subst same
      refine .inl ⟨complete, ?_⟩
      rw [Dotted.resolve, TypeExpr.namespaces, String.toList_ofList]
  | @literal text =>
      have same : text = word := by simpa [Lexeme.text] using written
      subst same
      rcases genuine _ List.mem_cons_self with digits | dots | ⟨quote, body, isQuote, rfl, -⟩
      · rw [TypeExpr.not_isNumber_of_isWordChar inWord] at digits
        cases digits
      · subst dots
        exact .inr ⟨rfl, rfl⟩
      · have ofQuote := inWord quote List.mem_cons_self
        rcases isQuote with rfl | rfl <;> cases ofQuote
  | subscript trailing ofBase nonempty ofArguments =>
      have present : '[' ∈ word := by
        rw [← written]
        simp [Lexeme.text]
      cases inWord '[' present

theorem parse_word_eq_ok_iff {word : List Char} (genuine : (Token.word word).IsGenuine)
    {found : Resolved TypeExpr} :
    parse word = .ok found ↔
      (Dotted.isComplete word = true ∧ found = Dotted.resolve word) ∨
        (word = ellipsis ∧ found = ⟨.literal "...", ∅⟩) := by
  constructor
  · exact exists_of_parse_word genuine.2.1
  · rintro (⟨complete, rfl⟩ | ⟨rfl, rfl⟩)
    · have parsed := (TypeExpr.isValue_of_word genuine complete).parse_inlineText
      rw [TypeExpr.inlineText_name, TypeExpr.namespaces, String.toList_ofList] at parsed
      exact parsed
    · exact (@TypeExpr.IsValue.ellipsis "..." rfl).parse_inlineText

end Value

namespace Sequence

open TypeExpr (ellipsis)

theorem ofWord_eq_ok_iff {word : List Char} {found : Resolved TypeExpr} :
    ofWord word = .ok found ↔ Dotted.isComplete word = true ∧ found = Dotted.resolve word := by
  unfold ofWord
  split
  · rename_i complete
    simp [complete, eq_comm]
  · rename_i incomplete
    simp [incomplete]

private theorem not_isComplete_ellipsis : Dotted.isComplete ellipsis = false := by
  decide

/-- A word standing alone is read as the value expression that it spells, and so is whatever
several tokens make up, except for the ellipsis. -/
theorem ofWord_agrees_iff {word : List Char} (genuine : (Token.word word).IsGenuine) :
    ((∀ found, ofWord word = .ok found ↔ Value.parse word = .ok found) ↔ word ≠ ellipsis) ∧
      (word ≠ ellipsis → ∀ tokens : List Token, tokens.flatMap Token.text = word →
        ∀ found, alternative (tokens.map .token) = .ok found ↔ ofWord word = .ok found) := by
  have agrees : word ≠ ellipsis →
      ∀ found, ofWord word = .ok found ↔ Value.parse word = .ok found := by
    intro notEllipsis found
    rw [ofWord_eq_ok_iff, Value.parse_word_eq_ok_iff genuine]
    exact (or_iff_left fun isEllipsis => notEllipsis isEllipsis.1).symm
  refine ⟨⟨?_, agrees⟩, ?_⟩
  · rintro same rfl
    have parsed := (Value.parse_word_eq_ok_iff genuine).mpr (.inr ⟨rfl, rfl⟩)
    have complete := (ofWord_eq_ok_iff.mp ((same _).mpr parsed)).1
    rw [not_isComplete_ellipsis] at complete
    cases complete
  · intro notEllipsis tokens isWord found
    by_cases single : ∃ other, tokens = [.word other]
    · obtain ⟨other, rfl⟩ := single
      have same : other = word := by simpa [Token.text] using isWord
      rw [same]
      exact Iff.rfl
    · have several : ∀ other, tokens ≠ [.word other] :=
        fun other isOther => single ⟨other, isOther⟩
      rw [agrees notEllipsis, ← readings_tokens, alternative_tokens several, isWord]

/-- A qualified name, alone and cut in two. -/
theorem ofWord_agrees_iff_qualified :
    (Token.word "xsd.String".toList).IsGenuine ∧ "xsd.String".toList ≠ ellipsis ∧
      (∀ found, ofWord "xsd.String".toList = .ok found ↔
        Value.parse "xsd.String".toList = .ok found) ∧
      ∀ found, alternative [.token (.word "xsd.".toList), .token (.word "String".toList)] =
        .ok found ↔ ofWord "xsd.String".toList = .ok found := by
  have genuine : (Token.word "xsd.String".toList).IsGenuine :=
    ⟨by decide, List.all_eq_true.mp (by decide), by decide⟩
  have notEllipsis : "xsd.String".toList ≠ ellipsis := by decide
  obtain ⟨agrees, divided⟩ := ofWord_agrees_iff genuine
  exact ⟨genuine, notEllipsis, agrees.mpr notEllipsis,
    divided notEllipsis [.word "xsd.".toList, .word "String".toList] (by decide)⟩

/-- The ellipsis is a value expression, but as one word it is refused for its segments. -/
theorem ofWord_ellipsis :
    (Token.word ellipsis).IsGenuine ∧ ofWord ellipsis = .error (.emptySegment "...") ∧
      Value.parse ellipsis = .ok ⟨.literal "...", ∅⟩ ∧
      TypeExpr.parse "..." = .error ⟨"...", .emptySegment "..."⟩ ∧
      TypeExpr.parse ". .." = .ok ⟨.literal "...", ∅⟩ := by
  have genuine : (Token.word ellipsis).IsGenuine :=
    ⟨by decide, List.all_eq_true.mp (by decide), by decide⟩
  have isValue : TypeExpr.IsValue (.literal "...") := .ellipsis rfl
  exact ⟨genuine, by rfl, isValue.parse_inlineText, by rfl,
    TypeExpr.parse_of_tokens [.word ['.'], .word ['.', '.']] (by rfl) (by decide) (by simp) isValue
      (by decide)⟩

end Sequence

end TypeStub
