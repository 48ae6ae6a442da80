import TypeStub.Proofs.TypeExpr.Printer

/-!
Contract: where documentation lets the reader see commas and brackets between parentheses.

Owns:
- `TypeExpr.exposedText`, what a type shows to the division of the argument list around it;
- `TypeExpr.StandApart`, the argument lists that are divided where they were joined;
- that no argument is spelled when it is cut at a comma of its own or run on behind the comma
  after it, so that other argument lists are not read at all.
-/

namespace TypeStub.TypeExpr

open Arguments (depthAfter depthThrough isGuarded splitFrom)
open Sequence (Spells)
open Token (ofText)

/-! ## What a type shows of itself -/

/-- A character as the division at commas sees it. -/
def charToken? (c : Char) : Option Token :=
  some (.other c)

/-- The text of a value expression. Parentheses hide that of any other type. -/
def valueText : TypeExpr → List Char
  | .generic _ _ => []
  | .union _ => []
  | e => e.inlineText

/-- The text of the value expressions that documentation writes outside parentheses. -/
def exposedText : TypeExpr → List Char
  | .union alternatives => alternatives.flatMap valueText
  | e => e.valueText

/-- No comma of an argument stands outside square brackets, and only the last argument may
leave a bracket open. -/
def StandApart (arguments : List TypeExpr) : Prop :=
  (∀ argument ∈ arguments, isGuarded charToken? 0 argument.exposedText = true) ∧
    ∀ argument ∈ arguments.dropLast, depthThrough charToken? 0 argument.exposedText = 0

instance (arguments : List TypeExpr) : Decidable (StandApart arguments) :=
  inferInstanceAs (Decidable (_ ∧ _))

/-- Nodes with the brackets and commas of a text, as far as they are in no group. -/
structure Shows (nodes : List Node) (text : List Char) : Prop where
  depth : ∀ before,
    depthThrough Node.token? before nodes = depthThrough charToken? before text
  guarded : ∀ before, isGuarded Node.token? before nodes = isGuarded charToken? before text

theorem shows_nil : Shows [] [] where
  depth _ := rfl
  guarded _ := rfl

theorem Shows.append {left right : List Node} {leftText rightText : List Char}
    (ofLeft : Shows left leftText) (ofRight : Shows right rightText) :
    Shows (left ++ right) (leftText ++ rightText) where
  depth before := by
    rw [Arguments.depthThrough_append, Arguments.depthThrough_append, ofLeft.depth, ofRight.depth]
  guarded before := by
    rw [Arguments.isGuarded_append, Arguments.isGuarded_append, ofLeft.guarded, ofLeft.depth,
      ofRight.guarded]

private theorem shows_other (c : Char) : Shows [.token (.other c)] [c] where
  depth _ := rfl
  guarded _ := rfl

/-- Groups, words and bars show nothing. -/
private theorem shows_hidden {node : Node} (hidden : ∀ c, node ≠ .token (.other c)) :
    Shows [node] [] := by
  have level : ∀ before, depthAfter before node.token? = before := by
    intro before
    unfold depthAfter
    split
    · rename_i isOpen
      exact absurd (Node.token?_eq_some.mp isOpen) (hidden '[')
    · rename_i isClose
      exact absurd (Node.token?_eq_some.mp isClose) (hidden ']')
    · rfl
  have notComma : node.token? ≠ some (.other ',') :=
    fun isComma => hidden ',' (Node.token?_eq_some.mp isComma)
  constructor
  · intro before
    simp [level]
  · intro before
    simp [isGuarded, notComma]

theorem shows_plain {c : Char} (notOpen : c ≠ '[') (notClose : c ≠ ']') (notComma : c ≠ ',') :
    Shows [] [c] where
  depth before := by simp [charToken?, depthAfter, notOpen, notClose]
  guarded before := by simp [charToken?, isGuarded, notComma]

private theorem shows_letter {c : Char} (inWord : Token.isWordChar c = true) : Shows [] [c] := by
  refine shows_plain ?_ ?_ ?_
  · rintro rfl
    exact absurd inWord (by decide)
  · rintro rfl
    exact absurd inWord (by decide)
  · rintro rfl
    exact absurd inWord (by decide)

private theorem shows_word {letters : List Char}
    (inWord : ∀ c ∈ letters, Token.isWordChar c = true) :
    Shows [.token (.word letters)] letters := by
  have ofLetters : Shows [] letters := by
    induction letters with
    | nil => exact shows_nil
    | cons head tail inductionHypothesis =>
        exact (shows_letter (inWord head List.mem_cons_self)).append
          (inductionHypothesis fun c member => inWord c (List.mem_cons_of_mem head member))
  exact (shows_hidden (by simp)).append ofLetters

private theorem shows_tokens {tokens : List Token} (genuine : ∀ token ∈ tokens, token.IsGenuine)
    (plain : ∀ token ∈ tokens, token.isPlain = true) :
    Shows (tokens.map .token) (tokens.flatMap Token.text) := by
  induction tokens with
  | nil => exact shows_nil
  | cons head tail inductionHypothesis =>
      have ofTail := inductionHypothesis
        (fun token member => genuine token (List.mem_cons_of_mem head member))
        fun token member => plain token (List.mem_cons_of_mem head member)
      have ofHead : Shows [.token head] head.text := by
        have headGenuine := genuine head List.mem_cons_self
        have headPlain := plain head List.mem_cons_self
        cases head with
        | word letters => exact shows_word headGenuine.2.1
        | other c => exact shows_other c
        | opening => cases headPlain
        | closing => cases headPlain
        | bar => cases headPlain
      exact ofHead.append ofTail

theorem IsValue.isPlain_ofText {e : TypeExpr} (isValue : IsValue e) (noBar : AtomsSpellNoBar e) :
    ∀ token ∈ ofText e.inlineText, token.isPlain = true := by
  intro token member
  exact Token.isPlain_of_mem_ofText isValue.isInline_inlineText
    (isValue.spellsNoBar_inlineText.mpr noBar) member

theorem IsValue.text_ofText {e : TypeExpr} (isValue : IsValue e) (noBar : AtomsSpellNoBar e) :
    (ofText e.inlineText).flatMap Token.text = e.inlineText :=
  Token.flatMap_text_ofText isValue.isInline_inlineText (isValue.spellsNoBar_inlineText.mpr noBar)

private theorem IsValue.shows {e : TypeExpr} (isValue : IsValue e) (noBar : AtomsSpellNoBar e) :
    Shows e.docNodes e.inlineText := by
  have ofTokens := shows_tokens (fun token => Token.isGenuine_of_mem_ofText)
    (isValue.isPlain_ofText noBar)
  rw [isValue.text_ofText noBar] at ofTokens
  rw [isValue.docNodes_eq]
  exact ofTokens

theorem IsValue.valueText_eq {e : TypeExpr} (isValue : IsValue e) :
    e.valueText = e.inlineText ∧ e.exposedText = e.inlineText := by
  cases isValue <;> exact ⟨rfl, rfl⟩

/-- A type shows the text of its value expression, or nothing, where it is an alternative. -/
private theorem shows_nodesAsAlternative {e : TypeExpr} (wellFormed : WellFormed e)
    (noBar : AtomsSpellNoBar e) : Shows e.nodesAsAlternative e.valueText := by
  cases wellFormed with
  | value isValue =>
      rw [nodesAsAlternative, if_neg (by simp [isValue.not_isUnion]), isValue.valueText_eq.1]
      exact isValue.shows noBar
  | generic => exact (shows_hidden (by simp)).append (shows_hidden (by simp))
  | union => exact shows_hidden (by simp)

theorem WellFormed.shows_docNodes {e : TypeExpr} (wellFormed : WellFormed e)
    (noBar : AtomsSpellNoBar e) : Shows e.docNodes e.exposedText := by
  cases wellFormed with
  | value isValue =>
      rw [isValue.valueText_eq.2]
      exact isValue.shows noBar
  | generic => exact (shows_hidden (by simp)).append (shows_hidden (by simp))
  | @union alternatives several ofAlternatives =>
      rw [atomsSpellNoBar_union] at noBar
      rw [docNodes, alternativeNodes_eq_map, exposedText, joinAlternatives]
      clear several
      induction alternatives with
      | nil => exact shows_nil
      | cons head tail inductionHypothesis =>
          have ofHead := shows_nodesAsAlternative (ofAlternatives head List.mem_cons_self)
            (noBar head List.mem_cons_self)
          have ofTail := inductionHypothesis
            (fun alternative member =>
              ofAlternatives alternative (List.mem_cons_of_mem head member))
            fun alternative member => noBar alternative (List.mem_cons_of_mem head member)
          cases tail with
          | nil => simpa using ofHead
          | cons second others =>
              have ofBar : Shows [.token .bar] [] := shows_hidden (by simp)
              have joined := (ofHead.append ofBar).append ofTail
              simpa [List.intercalate_cons_cons] using joined

/-! ## Arguments that stand apart -/

/-- Arguments that stand apart are divided where they were joined. -/
theorem split_joinArguments {arguments : List TypeExpr} (nonempty : arguments ≠ [])
    (ofArguments : ∀ argument ∈ arguments, WellFormed argument)
    (noBar : ∀ argument ∈ arguments, AtomsSpellNoBar argument) (apart : StandApart arguments) :
    splitFrom Node.token? 0 (joinArguments (arguments.map docNodes)) = arguments.map docNodes := by
  have shown : ∀ argument ∈ arguments, Shows argument.docNodes argument.exposedText :=
    fun argument member => (ofArguments argument member).shows_docNodes (noBar argument member)
  refine Arguments.splitFrom_intercalate Node.token?_comma (by simpa using nonempty) ?_ ?_
  · rw [List.forall_mem_map]
    intro argument member
    rw [(shown argument member).guarded]
    exact apart.1 argument member
  · rw [← List.map_dropLast, List.forall_mem_map]
    intro argument member
    rw [(shown argument (List.dropLast_subset arguments member)).depth]
    exact apart.2 argument member

/-! ## Arguments that do not -/

/-- What stands between two bars of a spelled type is spelled by itself. -/
theorem exists_spelled_part {nodes : List Node} {e : TypeExpr} (spelled : Spells nodes e)
    {part : List Node} (member : part ∈ nodes.splitOnP Node.isBar) :
    ∃ other, Spells part other := by
  have single : (∀ node ∈ nodes, node.isBar = false) → ∃ other, Spells part other := by
    intro free
    rw [List.splitOnP_eq_singleton free, List.mem_singleton] at member
    rw [member]
    exact ⟨e, spelled⟩
  cases spelled with
  | name => exact single (by simp [Node.isBar, Node.token?])
  | generic => exact single (by simp [Node.isBar, Node.token?])
  | grouped => exact single (by simp [Node.isBar, Node.token?])
  | @value tokens e noBar several parsed =>
      refine single ?_
      intro node inside
      obtain ⟨token, inTokens, rfl⟩ := List.mem_map.mp inside
      have notBar : token ≠ .bar := fun isBar => noBar (isBar ▸ inTokens)
      simpa [Node.isBar, Node.token?] using notBar
  | @union alternatives several noBar ofAlternatives =>
      have nonempty : alternatives.map Prod.fst ≠ [] := by
        intro empty
        rw [List.map_eq_nil_iff.mp empty] at several
        simp at several
      have free : ∀ piece ∈ alternatives.map Prod.fst, ∀ node ∈ piece, node.isBar = false := by
        intro piece inPieces
        obtain ⟨entry, inside, rfl⟩ := List.mem_map.mp inPieces
        exact noBar entry inside
      rw [Intercalate.splitOnP_intercalate rfl nonempty free] at member
      obtain ⟨entry, inside, rfl⟩ := List.mem_map.mp member
      exact ⟨entry.2, ofAlternatives entry inside⟩

theorem map_token_injective {left right : List Token}
    (same : left.map Node.token = right.map Node.token) : left = right := by
  rw [← Node.flattenAll_map_token left, same, Node.flattenAll_map_token]

theorem group_not_mem_map_token {inner : List Node} {tokens : List Token} :
    Node.group inner ∉ tokens.map Node.token := by
  intro member
  obtain ⟨token, -, isGroup⟩ := List.mem_map.mp member
  cases isGroup

/-- Nodes without a bar among them are a name, a value expression, a group or a generic. -/
theorem exists_shape_of_noBar {nodes : List Node} {e : TypeExpr}
    (spelled : Spells nodes e) (free : ∀ node ∈ nodes, node.isBar = false) :
    (∃ word, nodes = [.token (.word word)] ∧ Dotted.isComplete word = true) ∨
      (∃ tokens : List Token, nodes = tokens.map .token ∧ (∀ word, tokens ≠ [.word word]) ∧
        ∃ found, Value.parse (tokens.flatMap Token.text) = .ok found) ∨
      (∃ inner, nodes = [.group inner] ∧ Spells inner e) ∨
      ∃ word inner, nodes = [.token (.word word), .group inner] ∧
        ∀ piece ∈ splitFrom Node.token? 0 inner, ∃ argument, Spells piece argument := by
  cases spelled with
  | name complete => exact .inl ⟨_, rfl, complete⟩
  | value noBar several parsed => exact .inr (.inl ⟨_, rfl, several, _, parsed⟩)
  | grouped ofInner => exact .inr (.inr (.inl ⟨_, rfl, ofInner⟩))
  | @generic word ctor inner arguments named taken divided ofArguments =>
      refine .inr (.inr (.inr ⟨word, inner, rfl, ?_⟩))
      intro piece member
      rw [Arguments.split] at divided
      rw [divided] at member
      obtain ⟨entry, inside, rfl⟩ := List.mem_map.mp member
      exact ⟨entry.2, ofArguments entry inside⟩
  | @union alternatives several noBar ofAlternatives =>
      have isFree := free (.token .bar) (Intercalate.separator_mem (by simpa using several))
      cases isFree

theorem isBar_token {single : Token} (notBar : single ≠ .bar) :
    (Node.token single).isBar = false := by
  simpa [Node.isBar, Node.token?] using notBar

/-- Words and other characters only spell what their text is read as. -/
private theorem exists_parse_of_spells {tokens : List Token} {e : TypeExpr}
    (genuine : ∀ token ∈ tokens, token.IsGenuine) (plain : ∀ token ∈ tokens, token.isPlain = true)
    (spelled : Spells (tokens.map .token) e) :
    ∃ found, Value.parse (tokens.flatMap Token.text) = .ok found := by
  have free : ∀ node ∈ tokens.map Node.token, node.isBar = false := by
    intro node member
    obtain ⟨token, inside, rfl⟩ := List.mem_map.mp member
    refine isBar_token ?_
    rintro rfl
    cases plain _ inside
  rcases exists_shape_of_noBar spelled free with ⟨word, written, complete⟩ |
    ⟨others, written, -, parsed⟩ | ⟨inner, written, -⟩ | ⟨word, inner, written, -⟩
  · have only : tokens = [.word word] := map_token_injective written
    have ofWord : (Token.word word).IsGenuine := genuine _ (by simp [only])
    have parsed := (isValue_of_word ofWord complete).parse_inlineText
    rw [inlineText_name, String.toList_ofList] at parsed
    rw [only, List.flatMap_singleton]
    exact ⟨_, parsed⟩
  · rw [map_token_injective written]
    exact parsed
  · exact absurd (written ▸ List.mem_cons_self) (@group_not_mem_map_token inner tokens)
  · exact absurd (written ▸ List.mem_cons_of_mem _ List.mem_cons_self)
      (@group_not_mem_map_token inner tokens)

/-- A value expression is not spelled by what stands before a comma of its own. -/
private theorem IsValue.not_spells_cut {e : TypeExpr} (isValue : IsValue e)
    (noBar : AtomsSpellNoBar e) {front back : List Node}
    (cut : e.docNodes = front ++ .token (.other ',') :: back) (other : TypeExpr) :
    ¬ Spells front other := by
  intro spelled
  rw [isValue.docNodes_eq, List.map_eq_append_iff] at cut
  obtain ⟨left, rest, divided, rfl, isRest⟩ := cut
  rw [List.map_eq_cons_iff] at isRest
  obtain ⟨comma, right, rfl, isComma, -⟩ := isRest
  cases isComma
  have ofLeft : ∀ token ∈ left, token ∈ ofText e.inlineText := by
    intro token member
    rw [divided]
    exact List.mem_append_left _ member
  obtain ⟨found, parsed⟩ := exists_parse_of_spells
    (fun token member => Token.isGenuine_of_mem_ofText (ofLeft token member))
    (fun token member => isValue.isPlain_ofText noBar token (ofLeft token member)) spelled
  have whole := isValue.text_ofText noBar
  rw [divided, List.flatMap_append, List.flatMap_cons] at whole
  have accepted := isValue.parse_inlineText
  rw [← whole] at accepted
  exact Value.parse_append_comma parsed _ _ accepted

/-- Alternatives have no bar among their nodes. -/
theorem WellFormed.noBar_nodesAsAlternative {e : TypeExpr} (wellFormed : WellFormed e)
    (noBar : AtomsSpellNoBar e) : ∀ node ∈ e.nodesAsAlternative, node.isBar = false := by
  cases wellFormed with
  | value isValue =>
      rw [nodesAsAlternative, if_neg (by simp [isValue.not_isUnion]), isValue.docNodes_eq]
      intro node member
      obtain ⟨token, inside, rfl⟩ := List.mem_map.mp member
      refine isBar_token ?_
      rintro rfl
      cases isValue.isPlain_ofText noBar _ inside
  | generic => simp [nodesAsAlternative, isUnion, docNodes, Node.isBar, Node.token?]
  | union => simp [nodesAsAlternative, isUnion, Node.isBar, Node.token?]

private theorem WellFormed.isValue_of_comma {e : TypeExpr} (wellFormed : WellFormed e)
    (present : Node.token (.other ',') ∈ e.nodesAsAlternative) :
    IsValue e ∧ e.nodesAsAlternative = e.docNodes := by
  cases wellFormed with
  | value isValue => exact ⟨isValue, if_neg (by simp [isValue.not_isUnion])⟩
  | generic => simp [nodesAsAlternative, isUnion, docNodes] at present
  | union => simp [nodesAsAlternative, isUnion] at present

/-- A type is not spelled by what stands before a comma that it shows. -/
private theorem WellFormed.not_spells_cut {e : TypeExpr} (wellFormed : WellFormed e)
    (noBar : AtomsSpellNoBar e) {front back : List Node}
    (cut : e.docNodes = front ++ .token (.other ',') :: back) (other : TypeExpr) :
    ¬ Spells front other := by
  intro spelled
  cases wellFormed with
  | value isValue => exact isValue.not_spells_cut noBar cut other spelled
  | @generic ctor arguments taken nonempty ofArguments =>
      have present : Node.token (.other ',') ∈ (TypeExpr.generic ctor arguments).docNodes := by
        rw [cut]
        simp
      simp [docNodes] at present
  | @union alternatives several ofAlternatives =>
      rw [atomsSpellNoBar_union] at noBar
      rw [docNodes, joinAlternatives, alternativeNodes_eq_map] at cut
      obtain ⟨piece, member, left, right, isPiece, before⟩ :=
        Intercalate.exists_part_of_append_cons (by simp) cut
      obtain ⟨alternative, inside, rfl⟩ := List.mem_map.mp member
      obtain ⟨isValue, same⟩ := (ofAlternatives alternative inside).isValue_of_comma
        (by rw [isPiece]; simp)
      have free : ∀ node ∈ left, node.isBar = false := by
        intro node present
        refine (ofAlternatives alternative inside).noBar_nodesAsAlternative
          (noBar alternative inside) node ?_
        rw [isPiece]
        exact List.mem_append_left _ present
      have ofLeft : left ∈ front.splitOnP Node.isBar := by
        rcases before with rfl | ⟨before, rfl⟩
        · simp [List.splitOnP_eq_singleton free]
        · simp [List.splitOnP_append_cons before left Node.isBar_bar,
            List.splitOnP_eq_singleton free]
      obtain ⟨cutOff, ofCut⟩ := exists_spelled_part spelled ofLeft
      rw [same] at isPiece
      exact isValue.not_spells_cut (noBar alternative inside) isPiece cutOff ofCut

/-- An alternative is not spelled together with a comma and more behind it. -/
private theorem WellFormed.not_spells_alternative_run_on {e : TypeExpr} (wellFormed : WellFormed e)
    (noBar : AtomsSpellNoBar e) {back : List Node} (free : ∀ node ∈ back, node.isBar = false)
    (other : TypeExpr) : ¬ Spells (e.nodesAsAlternative ++ .token (.other ',') :: back) other := by
  intro spelled
  have allFree : ∀ node ∈ e.nodesAsAlternative ++ .token (.other ',') :: back,
      node.isBar = false := by
    intro node member
    rcases List.mem_append.mp member with inFront | later
    · exact wellFormed.noBar_nodesAsAlternative noBar node inFront
    rcases List.mem_cons.mp later with rfl | inBack
    · exact isBar_token (by simp)
    · exact free node inBack
  have comma : Node.token (.other ',') ∈ e.nodesAsAlternative ++ .token (.other ',') :: back := by
    simp
  rcases exists_shape_of_noBar spelled allFree with ⟨word, written, -⟩ |
    ⟨tokens, written, -, found, parsed⟩ | ⟨inner, written, -⟩ | ⟨word, inner, written, -⟩
  · rw [written] at comma
    simp at comma
  · cases wellFormed with
    | value isValue =>
        rw [nodesAsAlternative, if_neg (by simp [isValue.not_isUnion]),
          isValue.docNodes_eq] at written
        obtain ⟨left, rest, rfl, isLeft, isRest⟩ := List.map_eq_append_iff.mp written.symm
        obtain ⟨token, right, rfl, isComma, -⟩ := List.map_eq_cons_iff.mp isRest
        cases isComma
        rw [map_token_injective isLeft, List.flatMap_append, isValue.text_ofText noBar,
          List.flatMap_cons] at parsed
        exact Value.parse_append_comma isValue.parse_inlineText _ _ parsed
    | @generic ctor arguments taken nonempty ofArguments =>
        refine @group_not_mem_map_token (joinArguments (docNodesOfAll arguments)) tokens ?_
        rw [← written]
        simp [nodesAsAlternative, isUnion, docNodes]
    | @union alternatives several ofAlternatives =>
        refine @group_not_mem_map_token (TypeExpr.union alternatives).docNodes tokens ?_
        rw [← written]
        simp [nodesAsAlternative, isUnion]
  · rw [written] at comma
    simp at comma
  · rw [written] at comma
    simp at comma

/-- A type ends with one alternative, behind a bar if it has others. -/
private theorem WellFormed.exists_last_alternative {e : TypeExpr} (wellFormed : WellFormed e)
    (noBar : AtomsSpellNoBar e) :
    ∃ last : TypeExpr, WellFormed last ∧ AtomsSpellNoBar last ∧
      (e.docNodes = last.nodesAsAlternative ∨
        ∃ before, e.docNodes = before ++ .token .bar :: last.nodesAsAlternative) := by
  cases wellFormed with
  | @value e isValue =>
      refine ⟨e, .value isValue, noBar, .inl ?_⟩
      rw [nodesAsAlternative, if_neg (by simp [isValue.not_isUnion])]
  | @generic ctor arguments taken nonempty ofArguments =>
      exact ⟨_, .generic taken nonempty ofArguments, noBar, .inl rfl⟩
  | @union alternatives several ofAlternatives =>
      rw [atomsSpellNoBar_union] at noBar
      have nonempty : alternatives.map nodesAsAlternative ≠ [] := by
        intro empty
        rw [List.map_eq_nil_iff.mp empty] at several
        simp at several
      obtain ⟨piece, member, ends⟩ := @Intercalate.exists_last _ (Node.token .bar) _ nonempty
      obtain ⟨alternative, inside, rfl⟩ := List.mem_map.mp member
      refine ⟨alternative, ofAlternatives alternative inside, noBar alternative inside, ?_⟩
      rw [docNodes, joinAlternatives, alternativeNodes_eq_map]
      exact ends

/-- A type is not spelled together with a comma and more behind it. -/
private theorem WellFormed.not_spells_run_on {e : TypeExpr} (wellFormed : WellFormed e)
    (noBar : AtomsSpellNoBar e) (back : List Node) (other : TypeExpr) :
    ¬ Spells (e.docNodes ++ .token (.other ',') :: back) other := by
  intro spelled
  obtain ⟨last, ofLast, lastNoBar, ends⟩ := wellFormed.exists_last_alternative noBar
  obtain ⟨first, later, divided⟩ :=
    List.exists_cons_of_ne_nil (List.splitOnP_ne_nil Node.isBar back)
  have firstFree : ∀ node ∈ first, node.isBar = false := by
    refine @Intercalate.free_of_mem_splitOnP _ _ back _ ?_
    rw [divided]
    exact List.mem_cons_self
  have commaFree : ∀ node ∈ last.nodesAsAlternative ++ [.token (.other ',')],
      node.isBar = false := by
    intro node member
    rcases List.mem_append.mp member with inLast | isComma
    · exact ofLast.noBar_nodesAsAlternative lastNoBar node inLast
    · rw [List.mem_singleton.mp isComma]
      exact isBar_token (by simp)
  have pieces : (last.nodesAsAlternative ++ .token (.other ',') :: back).splitOnP Node.isBar =
      (last.nodesAsAlternative ++ .token (.other ',') :: first) :: later := by
    have passed := Intercalate.splitOnP_append commaFree back
    rw [divided] at passed
    simpa using passed
  have inPieces : last.nodesAsAlternative ++ .token (.other ',') :: first ∈
      (e.docNodes ++ .token (.other ',') :: back).splitOnP Node.isBar := by
    rcases ends with whole | ⟨before, whole⟩
    · rw [whole, pieces]
      exact List.mem_cons_self
    · rw [whole, List.append_assoc, List.cons_append,
        List.splitOnP_append_cons before _ Node.isBar_bar, pieces]
      exact List.mem_append_right _ List.mem_cons_self
  obtain ⟨runOn, ofRunOn⟩ := exists_spelled_part spelled inPieces
  exact ofLast.not_spells_alternative_run_on lastNoBar firstFree runOn ofRunOn

/-- If every division of an argument list is spelled, no comma in its first argument divides
it. -/
private theorem WellFormed.isGuarded_of_spelled {e : TypeExpr} (wellFormed : WellFormed e)
    (noBar : AtomsSpellNoBar e) {behind : List Node}
    (spelled : ∀ piece ∈ splitFrom Node.token? 0 (e.docNodes ++ behind),
      ∃ found, Spells piece found) :
    isGuarded Node.token? 0 e.docNodes = true := by
  cases exposed : isGuarded Node.token? 0 e.docNodes with
  | true => rfl
  | false =>
      obtain ⟨front, comma, back, cut, isComma, frontGuarded, level⟩ :=
        Arguments.exists_cut_of_not_isGuarded exposed
      rw [Node.token?_eq_some.mp isComma] at cut
      have first : front ∈ splitFrom Node.token? 0 (e.docNodes ++ behind) := by
        rw [cut, List.append_assoc, List.cons_append,
          Arguments.splitFrom_append_comma Node.token?_comma frontGuarded level]
        exact List.mem_cons_self
      obtain ⟨found, ofFront⟩ := spelled front first
      exact absurd ofFront (wellFormed.not_spells_cut noBar cut found)

/-- If every division of an argument list is spelled, no bracket stays open in its first
argument. -/
private theorem WellFormed.depth_of_spelled {e : TypeExpr} (wellFormed : WellFormed e)
    (noBar : AtomsSpellNoBar e) (guarded : isGuarded Node.token? 0 e.docNodes = true)
    {behind : List Node}
    (spelled : ∀ piece ∈ splitFrom Node.token? 0 (e.docNodes ++ .token (.other ',') :: behind),
      ∃ found, Spells piece found) : depthThrough Node.token? 0 e.docNodes = 0 := by
  by_cases level : depthThrough Node.token? 0 e.docNodes = 0
  · exact level
  obtain ⟨first, later, divided⟩ := List.exists_cons_of_ne_nil
    (Arguments.splitFrom_ne_nil Node.token? (depthThrough Node.token? 0 e.docNodes) behind)
  have runsOn : e.docNodes ++ .token (.other ',') :: first ∈
      splitFrom Node.token? 0 (e.docNodes ++ .token (.other ',') :: behind) := by
    rw [Arguments.splitFrom_append guarded, splitFrom, if_neg (fun cut => level cut.2),
      Node.token?_comma, Arguments.depthAfter_comma, divided]
    exact List.mem_cons_self
  obtain ⟨found, ofFirst⟩ := spelled _ runsOn
  exact absurd ofFirst (wellFormed.not_spells_run_on noBar first found)

/-- An argument list of which every division is spelled has arguments that stand apart. -/
theorem standApart_of_spelled {arguments : List TypeExpr}
    (ofArguments : ∀ argument ∈ arguments, WellFormed argument)
    (noBar : ∀ argument ∈ arguments, AtomsSpellNoBar argument)
    (spelled : ∀ piece ∈ splitFrom Node.token? 0 (joinArguments (arguments.map docNodes)),
      ∃ e, Spells piece e) : StandApart arguments := by
  induction arguments with
  | nil => exact ⟨by simp, by simp⟩
  | cons head tail inductionHypothesis =>
      have ofHead := ofArguments head List.mem_cons_self
      have headNoBar := noBar head List.mem_cons_self
      have shown := ofHead.shows_docNodes headNoBar
      cases tail with
      | nil =>
          have alone : joinArguments ([head].map docNodes) = head.docNodes ++ [] := by
            simp [joinArguments]
          rw [alone] at spelled
          have guarded := ofHead.isGuarded_of_spelled headNoBar spelled
          rw [shown.guarded] at guarded
          exact ⟨by simpa using guarded, by simp⟩
      | cons second others =>
          have joined : joinArguments ((head :: second :: others).map docNodes) =
              head.docNodes ++ .token (.other ',') ::
                joinArguments ((second :: others).map docNodes) := by
            simp [joinArguments, List.intercalate_cons_cons]
          rw [joined] at spelled
          -- The comma behind the first argument divides, since the argument shows none of its own
          -- and leaves no bracket open.
          have guarded := ofHead.isGuarded_of_spelled headNoBar spelled
          have level := ofHead.depth_of_spelled headNoBar guarded spelled
          rw [Arguments.splitFrom_append_comma Node.token?_comma guarded level] at spelled
          have ofTail := inductionHypothesis
            (fun argument member => ofArguments argument (List.mem_cons_of_mem head member))
            (fun argument member => noBar argument (List.mem_cons_of_mem head member))
            (fun piece member => spelled piece (List.mem_cons_of_mem _ member))
          rw [shown.guarded] at guarded
          rw [shown.depth] at level
          constructor
          · intro argument member
            rcases List.mem_cons.mp member with rfl | member
            · exact guarded
            · exact ofTail.1 argument member
          · intro argument member
            rw [List.dropLast_cons_cons] at member
            rcases List.mem_cons.mp member with rfl | member
            · exact level
            · exact ofTail.2 argument member

end TypeStub.TypeExpr
