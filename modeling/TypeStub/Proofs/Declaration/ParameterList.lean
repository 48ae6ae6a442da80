import TypeStub.Proofs.Declaration.ParameterText
import TypeStub.Proofs.Declaration.Rederivation
import TypeStub.Proofs.Signature

/-!
Contract: a parameter list as a stub writes it shows the kind of each parameter.

Owns:
- `Parameter.layout`, the parts of a valid list: its parameters kind by kind and two markers;
- `readKinds`, which tells the kind of each parameter from the stars and markers around it;
- `Parameter.listText_tells_kinds`, lists of one text have the same parameters.

Does not own: whether the list has a default where none may stand
(`TypeStub.Proofs.Declaration.ParameterGrammar`).
-/

namespace TypeStub.Decl

namespace Parameter

/-! ## Kinds in order -/

/-- The parameters of one kind. -/
def ofKind (kind : ParameterKind) (parameters : List Parameter) : List Parameter :=
  parameters.filter fun parameter => parameter.kind = kind

theorem mem_ofKind {kind : ParameterKind} {parameters : List Parameter} {parameter : Parameter} :
    parameter ∈ ofKind kind parameters ↔ parameter ∈ parameters ∧ parameter.kind = kind := by
  simp [ofKind]

theorem kind_of_mem_ofKind {kind : ParameterKind} (parameters : List Parameter) :
    ∀ parameter ∈ ofKind kind parameters, parameter.kind = kind :=
  fun _ member => (mem_ofKind.mp member).2

theorem ofKind_eq_nil_iff {kind : ParameterKind} {parameters : List Parameter} :
    ofKind kind parameters = [] ↔ ∀ parameter ∈ parameters, parameter.kind ≠ kind := by
  simp [ofKind]

theorem hasVariadic_eq (parameters : List Parameter) :
    hasVariadic parameters = !(ofKind .varPositional parameters).isEmpty := by
  rw [Bool.eq_iff_iff]
  simp [hasVariadic, ofKind]

/-- The kinds of the list stand in order. -/
def InOrder (parameters : List Parameter) : Prop :=
  (parameters.map (·.kind)).Pairwise ParameterKind.Precedes

/-- A list in order is what it has of each kind, one after another. -/
theorem InOrder.eq_append {parameters : List Parameter} (inOrder : InOrder parameters) :
    parameters = ofKind .positionalOnly parameters ++ (ofKind .positionalOrKeyword parameters ++
      (ofKind .varPositional parameters ++ (ofKind .keywordOnly parameters ++
        ofKind .varKeyword parameters))) := by
  induction parameters with
  | nil => rfl
  | cons parameter rest inductionHypothesis =>
      rw [InOrder, List.map_cons, List.pairwise_cons] at inOrder
      obtain ⟨first, restInOrder⟩ := inOrder
      have noneBefore : ∀ kind : ParameterKind, kind.rank < parameter.kind.rank →
          ofKind kind rest = [] := by
        intro kind before
        rw [ofKind_eq_nil_iff]
        rintro other member rfl
        rcases first _ (List.mem_map_of_mem member) with after | ⟨same, -⟩
        · omega
        · rw [same] at before
          omega
      have ofCons : ∀ kind, ofKind kind (parameter :: rest) =
          if parameter.kind = kind then parameter :: ofKind kind rest else ofKind kind rest := by
        intro kind
        simp [ofKind, List.filter_cons]
      -- The first parameter stands before all of its kind, and nothing of an earlier kind is left.
      refine (congrArg (parameter :: ·) (inductionHypothesis restInOrder)).trans ?_
      simp only [ofCons]
      cases kindIs : parameter.kind with
      | positionalOnly => rfl
      | positionalOrKeyword =>
          rw [kindIs] at noneBefore
          rw [noneBefore .positionalOnly (by decide)]
          rfl
      | varPositional =>
          rw [kindIs] at noneBefore
          rw [noneBefore .positionalOnly (by decide), noneBefore .positionalOrKeyword (by decide)]
          rfl
      | keywordOnly =>
          rw [kindIs] at noneBefore
          rw [noneBefore .positionalOnly (by decide), noneBefore .positionalOrKeyword (by decide),
            noneBefore .varPositional (by decide)]
          rfl
      | varKeyword =>
          rw [kindIs] at noneBefore
          rw [noneBefore .positionalOnly (by decide), noneBefore .positionalOrKeyword (by decide),
            noneBefore .varPositional (by decide), noneBefore .keywordOnly (by decide)]
          rfl

/-! ## The parts of a list -/

/-- What a stub shows of the parameter behind its stars. -/
def shown (parameter : Parameter) : Shown :=
  ⟨parameter.name, parameter.annotation.map TypeExpr.stubText, parameter.default.isSome⟩

/-- The number of stars before a parameter of the kind. -/
def starCount : ParameterKind → Nat
  | .varPositional => 1
  | .varKeyword => 2
  | _ => 0

def piece (parameter : Parameter) : Piece :=
  .named (starCount parameter.kind) parameter.shown

theorem text_piece (parameter : Parameter) : parameter.piece.text = parameter.text := by
  obtain ⟨name, kind, default, annotation⟩ := parameter
  have sameStars : List.replicate (starCount kind) '*' = stars kind := by cases kind <;> rfl
  rw [piece, Piece.text, sameStars]
  cases annotation <;> cases default <;> simp [text, shown, Shown.text, Shown.lead, Shown.final]

theorem map_text_map_piece (parameters : List Parameter) :
    (parameters.map piece).map Piece.text = parameters.map text := by
  rw [List.map_map]
  exact List.map_congr_left fun parameter _ => text_piece parameter

/-- The marker behind positional-only parameters, if there are any. -/
def slashPieces (parameters : List Parameter) : List Piece :=
  if ofKind .positionalOnly parameters = [] then [] else [.slash]

/-- The marker before keyword-only parameters, if there are any and no variadic one does its
work. -/
def starPieces (parameters : List Parameter) : List Piece :=
  if ofKind .keywordOnly parameters = [] ∨ hasVariadic parameters = true then [] else [.star]

/-- The parts from the first keyword-only parameter on. -/
def keywordPieces (parameters : List Parameter) : List Piece :=
  (ofKind .keywordOnly parameters).map piece ++ (ofKind .varKeyword parameters).map piece

/-- The parts behind the positional parameters. -/
def tailPieces (parameters : List Parameter) : List Piece :=
  (ofKind .varPositional parameters).map piece ++
    (starPieces parameters ++ keywordPieces parameters)

/-- The parts of a list whose kinds stand in order. -/
def layout (parameters : List Parameter) : List Piece :=
  (ofKind .positionalOnly parameters).map piece ++ (slashPieces parameters ++
    ((ofKind .positionalOrKeyword parameters).map piece ++ tailPieces parameters))

section Blocks

variable {variadic : Bool} {kind : ParameterKind} {block rest : List Parameter}

/-- Between parameters of one kind there is no marker. -/
private theorem parts_run (ofBlock : ∀ parameter ∈ block, parameter.kind = kind) :
    parts variadic (some kind) (block ++ rest) =
      block.map text ++ parts variadic (some kind) rest := by
  induction block with
  | nil => rfl
  | cons parameter others inductionHypothesis =>
      obtain ⟨ofParameter, ofOthers⟩ := List.forall_mem_cons.mp ofBlock
      have noSlash : (if kind = .positionalOnly then [] else slash (some kind)) = [] := by
        split
        · rfl
        · simp_all [slash]
      have noStar : star variadic (some kind) kind = [] := by simp +contextual [star]
      rw [List.cons_append, parts, ofParameter, noSlash, noStar, inductionHypothesis ofOthers]
      rfl

/-- Only two kinds make a marker necessary behind them. -/
private theorem parts_some (notPositionalOnly : kind ≠ .positionalOnly)
    (notKeywordOnly : kind ≠ .keywordOnly) :
    parts variadic (some kind) rest = parts variadic none rest := by
  cases rest with
  | nil => simp [parts, slash, notPositionalOnly]
  | cons parameter others => simp [parts, slash, star, notPositionalOnly, notKeywordOnly]

private theorem parts_unmarked (notPositionalOnly : kind ≠ .positionalOnly)
    (notKeywordOnly : kind ≠ .keywordOnly) (ofBlock : ∀ parameter ∈ block, parameter.kind = kind) :
    parts variadic none (block ++ rest) = block.map text ++ parts variadic none rest := by
  rw [← parts_some notPositionalOnly notKeywordOnly, parts_run ofBlock,
    parts_some notPositionalOnly notKeywordOnly]

private theorem parts_positionalOnly
    (ofBlock : ∀ parameter ∈ block, parameter.kind = .positionalOnly) (nonempty : block ≠ [])
    (noneLeft : ∀ parameter ∈ rest, parameter.kind ≠ .positionalOnly) :
    parts variadic none (block ++ rest) =
      block.map text ++ ['/'] :: parts variadic none rest := by
  -- The marker is written by what comes next, be it a parameter of any kind or the end.
  have marked : parts variadic (some .positionalOnly) rest = ['/'] :: parts variadic none rest := by
    cases rest with
    | nil => rfl
    | cons parameter others =>
        have other := noneLeft parameter List.mem_cons_self
        simp [parts, slash, star, other]
  obtain ⟨first, others, rfl⟩ := List.exists_cons_of_ne_nil nonempty
  obtain ⟨ofFirst, ofOthers⟩ := List.forall_mem_cons.mp ofBlock
  rw [List.cons_append, parts, ofFirst, parts_run ofOthers, marked]
  rfl

private theorem parts_keywordOnly (ofBlock : ∀ parameter ∈ block, parameter.kind = .keywordOnly)
    (nonempty : block ≠ []) (noneLeft : ∀ parameter ∈ rest, parameter.kind ≠ .keywordOnly) :
    parts variadic none (block ++ rest) =
      (if variadic then [] else [['*']]) ++ (block.map text ++ parts variadic none rest) := by
  have unmarked : parts variadic (some .keywordOnly) rest = parts variadic none rest := by
    cases rest with
    | nil => rfl
    | cons parameter others =>
        have other := noneLeft parameter List.mem_cons_self
        simp [parts, slash, star, other]
  obtain ⟨first, others, rfl⟩ := List.exists_cons_of_ne_nil nonempty
  obtain ⟨ofFirst, ofOthers⟩ := List.forall_mem_cons.mp ofBlock
  rw [List.cons_append, parts, ofFirst, parts_run ofOthers, unmarked]
  cases variadic <;> rfl

end Blocks

private theorem kind_ne {kind other : ParameterKind} (different : kind ≠ other)
    (parameters : List Parameter) :
    ∀ parameter ∈ ofKind kind parameters, parameter.kind ≠ other := by
  intro parameter member
  rw [kind_of_mem_ofKind parameters parameter member]
  exact different

private theorem parts_keywords (variadic : Bool) (parameters : List Parameter) :
    parts variadic none (ofKind .keywordOnly parameters ++ ofKind .varKeyword parameters) =
      (if ofKind .keywordOnly parameters = [] ∨ variadic = true then [] else [['*']]) ++
        ((ofKind .keywordOnly parameters).map text ++
          (ofKind .varKeyword parameters).map text) := by
  have last : parts variadic none (ofKind .varKeyword parameters ++ []) =
      (ofKind .varKeyword parameters).map text ++ parts variadic none [] :=
    parts_unmarked (by decide) (by decide) (kind_of_mem_ofKind parameters)
  have closed : parts variadic none [] = [] := rfl
  rw [closed, List.append_nil, List.append_nil] at last
  by_cases empty : ofKind .keywordOnly parameters = []
  · simp [empty, last]
  · rw [parts_keywordOnly (kind_of_mem_ofKind parameters) empty
      (kind_ne (by decide) parameters), last]
    simp [empty]

/-- The parameters that stand behind the marker of the positional-only ones. -/
def afterSlash (parameters : List Parameter) : List Parameter :=
  ofKind .positionalOrKeyword parameters ++ (ofKind .varPositional parameters ++
    (ofKind .keywordOnly parameters ++ ofKind .varKeyword parameters))

private theorem parts_afterSlash (parameters : List Parameter) :
    parts (hasVariadic parameters) none (afterSlash parameters) =
      ((ofKind .positionalOrKeyword parameters).map piece ++ tailPieces parameters).map
        Piece.text := by
  have starText : (if ofKind .keywordOnly parameters = [] ∨ hasVariadic parameters = true then []
      else [['*']]) = (starPieces parameters).map Piece.text := by
    unfold starPieces
    split <;> rfl
  rw [afterSlash, parts_unmarked (by decide) (by decide) (kind_of_mem_ofKind parameters),
    parts_unmarked (by decide) (by decide) (kind_of_mem_ofKind parameters),
    parts_keywords, starText, tailPieces, keywordPieces]
  simp only [List.map_append, map_text_map_piece]

/-- A list whose kinds stand in order is written as its layout says. -/
theorem parts_eq_layout {parameters : List Parameter} (inOrder : InOrder parameters) :
    parts (hasVariadic parameters) none parameters = (layout parameters).map Piece.text := by
  have written : parts (hasVariadic parameters) none parameters =
      parts (hasVariadic parameters) none
        (ofKind .positionalOnly parameters ++ afterSlash parameters) :=
    congrArg _ inOrder.eq_append
  rw [written, layout, List.map_append, List.map_append, map_text_map_piece, slashPieces]
  by_cases empty : ofKind .positionalOnly parameters = []
  · rw [if_pos empty, empty, List.nil_append, parts_afterSlash]
    rfl
  · have noneLeft : ∀ parameter ∈ afterSlash parameters, parameter.kind ≠ .positionalOnly := by
      simp only [afterSlash, List.forall_mem_append]
      exact ⟨kind_ne (by decide) _, kind_ne (by decide) _, kind_ne (by decide) _,
        kind_ne (by decide) _⟩
    rw [parts_positionalOnly (kind_of_mem_ofKind parameters) empty noneLeft,
      parts_afterSlash, if_neg empty]
    rfl

/-! ## Reading kinds -/

end Parameter

/-- The kind of a parameter, by its stars and by the markers on either side. -/
def readKind (afterStar beforeSlash : Bool) : Nat → ParameterKind
  | 0 =>
      if beforeSlash then .positionalOnly
      else if afterStar then .keywordOnly
      else .positionalOrKeyword
  | 1 => .varPositional
  | _ => .varKeyword

/-- The parameters among the parts, each with its kind. Behind a part that begins with one star
stand keyword-only parameters. -/
def readKinds (afterStar : Bool) : List Piece → List (ParameterKind × Shown)
  | [] => []
  | .slash :: rest => readKinds afterStar rest
  | .star :: rest => readKinds true rest
  | .named stars shown :: rest =>
      (readKind afterStar (.slash ∈ rest) stars, shown) ::
        readKinds (afterStar || stars == 1) rest

namespace Parameter

/-- The parameter with its kind, as a reader of the stub sees it. -/
def kindAndShown (parameter : Parameter) : ParameterKind × Shown :=
  (parameter.kind, parameter.shown)

section Reading

variable {afterStar : Bool} {kind : ParameterKind} {block : List Parameter} {rest : List Piece}

private theorem slash_mem_pieces_append :
    (.slash ∈ block.map piece ++ rest) = (Piece.slash ∈ rest) := by
  simp [piece]

/-- Parameters with no star or two leave the reader as it is, so if it reads one of them rightly
then it reads all. -/
private theorem readKinds_block (ofBlock : ∀ parameter ∈ block, parameter.kind = kind)
    (unchanged : (starCount kind == 1) = false)
    (isRead : readKind afterStar (.slash ∈ rest) (starCount kind) = kind) :
    readKinds afterStar (block.map piece ++ rest) =
      block.map kindAndShown ++ readKinds afterStar rest := by
  induction block with
  | nil => rfl
  | cons parameter others inductionHypothesis =>
      obtain ⟨ofParameter, ofOthers⟩ := List.forall_mem_cons.mp ofBlock
      rw [List.map_cons, List.cons_append, piece, ofParameter, readKinds, unchanged,
        Bool.or_false, inductionHypothesis ofOthers, List.map_cons, kindAndShown, ofParameter]
      simp only [slash_mem_pieces_append, isRead]
      rfl

private theorem readKinds_varPositional
    (ofBlock : ∀ parameter ∈ block, parameter.kind = .varPositional) :
    readKinds afterStar (block.map piece ++ rest) =
      block.map kindAndShown ++ readKinds (afterStar || !block.isEmpty) rest := by
  induction block generalizing afterStar with
  | nil => simp
  | cons parameter others inductionHypothesis =>
      obtain ⟨ofParameter, ofOthers⟩ := List.forall_mem_cons.mp ofBlock
      rw [List.map_cons, List.cons_append, piece, ofParameter, starCount, readKinds, readKind,
        inductionHypothesis ofOthers, List.map_cons, kindAndShown, ofParameter]
      simp

end Reading

private theorem readKinds_varKeyword (afterStar : Bool) (parameters : List Parameter) :
    readKinds afterStar ((ofKind .varKeyword parameters).map piece) =
      (ofKind .varKeyword parameters).map kindAndShown := by
  have read : readKinds afterStar ((ofKind .varKeyword parameters).map piece ++ []) =
      (ofKind .varKeyword parameters).map kindAndShown ++ readKinds afterStar [] :=
    readKinds_block (kind_of_mem_ofKind parameters) rfl rfl
  rwa [List.append_nil, readKinds, List.append_nil] at read

private theorem readKinds_keywords (parameters : List Parameter) :
    readKinds (hasVariadic parameters) (starPieces parameters ++ keywordPieces parameters) =
      (ofKind .keywordOnly parameters).map kindAndShown ++
        (ofKind .varKeyword parameters).map kindAndShown := by
  have behind : readKinds true (keywordPieces parameters) =
      (ofKind .keywordOnly parameters).map kindAndShown ++
        (ofKind .varKeyword parameters).map kindAndShown := by
    have noSlash : Piece.slash ∉ (ofKind .varKeyword parameters).map piece := by simp [piece]
    rw [keywordPieces, readKinds_block (kind_of_mem_ofKind parameters) rfl
      (by simp [starCount, readKind, noSlash]), readKinds_varKeyword]
  by_cases empty : ofKind .keywordOnly parameters = []
  · rw [starPieces, if_pos (.inl empty), keywordPieces, empty]
    exact readKinds_varKeyword _ parameters
  · cases isVariadic : hasVariadic parameters with
    | true =>
        rw [starPieces, if_pos (.inr isVariadic)]
        exact behind
    | false =>
        rw [starPieces, if_neg (by simp [empty, isVariadic])]
        exact behind

private theorem slash_not_mem_tailPieces (parameters : List Parameter) :
    Piece.slash ∉ tailPieces parameters := by
  have notStar : Piece.slash ∉ starPieces parameters := by
    unfold starPieces
    split <;> simp
  simp [tailPieces, keywordPieces, piece, notStar]

private theorem readKinds_afterSlash (parameters : List Parameter) :
    readKinds false ((ofKind .positionalOrKeyword parameters).map piece ++ tailPieces parameters) =
      (afterSlash parameters).map kindAndShown := by
  have isRead : readKind false (.slash ∈ tailPieces parameters) 0 = .positionalOrKeyword := by
    simp [readKind, slash_not_mem_tailPieces]
  rw [readKinds_block (kind_of_mem_ofKind parameters) rfl isRead, tailPieces,
    readKinds_varPositional (kind_of_mem_ofKind parameters), Bool.false_or,
    ← hasVariadic_eq, readKinds_keywords, afterSlash, List.map_append, List.map_append,
    List.map_append]

/-- A reader of the layout finds all parameters with their kinds. -/
theorem readKinds_layout {parameters : List Parameter} (inOrder : InOrder parameters) :
    readKinds false (layout parameters) = parameters.map kindAndShown := by
  have divided : parameters = ofKind .positionalOnly parameters ++ afterSlash parameters :=
    inOrder.eq_append
  rw [layout, slashPieces]
  by_cases empty : ofKind .positionalOnly parameters = []
  · rw [empty, List.nil_append] at divided
    rw [if_pos empty, empty]
    exact (readKinds_afterSlash parameters).trans (congrArg _ divided.symm)
  · rw [if_neg empty, readKinds_block (kind_of_mem_ofKind parameters) rfl
      (by simp [starCount, readKind])]
    have behind : readKinds false ([.slash] ++
        ((ofKind .positionalOrKeyword parameters).map piece ++ tailPieces parameters)) =
          (afterSlash parameters).map kindAndShown := readKinds_afterSlash parameters
    rw [behind, ← List.map_append, ← divided]

/-! ## Lists in stubs -/

/-- A valid list of identifiers, whose types have been read. -/
structure IsSignature (parameters : List Parameter) : Prop where
  valid : Signature.validate (parameters.map reported) = .ok ()
  names : ∀ parameter ∈ parameters, Directive.IsName parameter.name.toList
  annotations : ∀ parameter ∈ parameters, ∀ type ∈ parameter.annotation,
    ∃ text found, TypeExpr.parse text = .ok found ∧ found.value = type

/-- The parameters have one name and kind, and a stub shows the same of type and default. -/
structure Alike (left right : Parameter) : Prop where
  name : left.name = right.name
  kind : left.kind = right.kind
  hasDefault : left.default.isSome = right.default.isSome
  annotation : left.annotation.map TypeExpr.toStub = right.annotation.map TypeExpr.toStub

theorem alike_iff {left right : Parameter} :
    Alike left right ↔ left.kindAndShown = right.kindAndShown := by
  have sameAnnotation : left.annotation.map TypeExpr.toStub =
      right.annotation.map TypeExpr.toStub ↔
        left.annotation.map TypeExpr.stubText = right.annotation.map TypeExpr.stubText := by
    cases left.annotation <;> cases right.annotation <;> simp [TypeExpr.toStub, String.ofList_inj]
  rw [kindAndShown, kindAndShown, Prod.mk.injEq, shown, shown, Shown.mk.injEq, ← sameAnnotation]
  constructor
  · rintro ⟨name, kind, hasDefault, annotation⟩
    exact ⟨kind, name, annotation, hasDefault⟩
  · rintro ⟨kind, name, annotation, hasDefault⟩
    exact ⟨name, kind, hasDefault, annotation⟩

theorem inOrder_of_validate {parameters : List Parameter}
    (valid : Signature.validate (parameters.map reported) = .ok ()) : InOrder parameters := by
  obtain ⟨-, inOrder⟩ := Signature.validate_eq_ok_iff.mp valid
  rwa [List.map_map] at inOrder

theorem listText_eq_joined {parameters : List Parameter} (inOrder : InOrder parameters) :
    listText parameters = Piece.joined (layout parameters) := by
  rw [listText, parts_eq_layout inOrder, Piece.joined]

/-- The parts are markers and parameters of the list. -/
theorem isOver_of_mem_layout {expression : List Char → Prop} {parameters : List Parameter}
    (names : ∀ parameter ∈ parameters, Directive.IsName parameter.name.toList)
    (annotations : ∀ parameter ∈ parameters, ∀ type ∈ parameter.annotation,
      expression type.stubText) :
    ∀ part ∈ layout parameters, part.IsOver expression := by
  have ofNamed : ∀ kind, ∀ part ∈ (ofKind kind parameters).map piece,
      part.IsOver expression := by
    rintro kind _ member
    obtain ⟨parameter, inKind, rfl⟩ := List.mem_map.mp member
    obtain ⟨inParameters, -⟩ := mem_ofKind.mp inKind
    refine ⟨names parameter inParameters, ?_⟩
    intro text isText
    obtain ⟨type, isType, rfl⟩ := Option.map_eq_some_iff.mp isText
    exact annotations parameter inParameters type isType
  have ofSlash : ∀ part ∈ slashPieces parameters, part.IsOver expression := by
    unfold slashPieces
    split <;> simp [Piece.IsOver]
  have ofStar : ∀ part ∈ starPieces parameters, part.IsOver expression := by
    unfold starPieces
    split <;> simp [Piece.IsOver]
  simp only [layout, tailPieces, keywordPieces, List.forall_mem_append]
  exact ⟨ofNamed _, ofSlash, ofNamed _, ofNamed _, ofStar, ofNamed _, ofNamed _⟩

theorem IsSignature.isLegible {parameters : List Parameter} (signature : IsSignature parameters) :
    ∀ part ∈ layout parameters, part.IsLegible := by
  apply isOver_of_mem_layout signature.names
  intro parameter member type isType
  obtain ⟨text, found, parsed, rfl⟩ := signature.annotations parameter member type isType
  exact ⟨found.value, (TypeExpr.wellFormed_of_parse parsed).1, rfl⟩

theorem parts_of_alike {left right : List Parameter} (alike : List.Forall₂ Alike left right)
    (variadic : Bool) (previous : Option ParameterKind) :
    parts variadic previous left = parts variadic previous right := by
  induction alike generalizing previous with
  | nil => rfl
  | @cons parameter other _ _ same _ inductionHypothesis =>
      have sameText : parameter.text = other.text := by
        rw [← text_piece, ← text_piece, piece, piece]
        have sameShown := Prod.mk.inj (alike_iff.mp same)
        rw [sameShown.1, sameShown.2]
      rw [parts, parts, same.kind, sameText, inductionHypothesis]

theorem listText_of_alike {left right : List Parameter} (alike : List.Forall₂ Alike left right) :
    listText left = listText right := by
  have sameVariadic : hasVariadic left = hasVariadic right := by
    induction alike with
    | nil => rfl
    | cons same _ inductionHypothesis =>
        rw [hasVariadic, hasVariadic] at inductionHypothesis ⊢
        rw [List.any_cons, List.any_cons, same.kind, inductionHypothesis]
  rw [listText, listText, sameVariadic, parts_of_alike alike]

theorem IsSignature.alike_of_listText {left right : List Parameter} (ofLeft : IsSignature left)
    (ofRight : IsSignature right) (same : listText left = listText right) :
    List.Forall₂ Alike left right := by
  have leftInOrder := inOrder_of_validate ofLeft.valid
  have rightInOrder := inOrder_of_validate ofRight.valid
  rw [listText_eq_joined leftInOrder, listText_eq_joined rightInOrder] at same
  have sameLayout := (Piece.joined_inj ofLeft.isLegible ofRight.isLegible).mp same
  have sameKinds : left.map kindAndShown = right.map kindAndShown := by
    rw [← readKinds_layout leftInOrder, ← readKinds_layout rightInOrder, sameLayout]
  rw [← List.forall₂_eq_eq_eq, List.forall₂_map_left_iff, List.forall₂_map_right_iff] at sameKinds
  exact sameKinds.imp fun _ _ => alike_iff.mpr

/-! ## Markers -/

/-- Among the texts are the two markers of the list, where they belong and nowhere else. -/
structure Marked (parameters : List Parameter) (texts : List (List Char)) : Prop where
  slashCount : texts.count ['/'] =
    if ∃ parameter ∈ parameters, parameter.kind = .positionalOnly then 1 else 0
  slashPlace : ∀ front back, texts = front ++ ['/'] :: back →
    front = (ofKind .positionalOnly parameters).map text
  starCount : texts.count ['*'] =
    if (∃ parameter ∈ parameters, parameter.kind = .keywordOnly) ∧
        ∀ parameter ∈ parameters, parameter.kind ≠ .varPositional then 1 else 0
  starPlace : ∀ front back, texts = front ++ ['*'] :: back →
    back = (ofKind .keywordOnly parameters ++ ofKind .varKeyword parameters).map text

/-- A marker that the layout has at most once is found in the texts there and nowhere else. -/
private theorem marker_place {marker : Piece} (markerLegible : marker.IsLegible)
    {before middle after : List Piece} {present : Prop} [Decidable present]
    (legible : ∀ part ∈ before ++ (middle ++ after), part.IsLegible) (notBefore : marker ∉ before)
    (notAfter : marker ∉ after) (isMiddle : middle = if present then [marker] else []) :
    ((before ++ (middle ++ after)).map Piece.text).count marker.text =
        (if present then 1 else 0) ∧
      ∀ front back, (before ++ (middle ++ after)).map Piece.text = front ++ marker.text :: back →
        front = before.map Piece.text ∧ back = after.map Piece.text := by
  have isMarker : ∀ part ∈ before ++ (middle ++ after), part.text = marker.text → part = marker :=
    fun part member same => (Piece.readsBack (legible part member) marker markerLegible [] []
      (.inl rfl) (.inl rfl) same).2
  simp only [List.forall_mem_append] at isMarker
  have notTextBefore : marker.text ∉ before.map Piece.text := by
    intro member
    obtain ⟨part, inside, same⟩ := List.mem_map.mp member
    exact notBefore (isMarker.1 part inside same ▸ inside)
  have notTextAfter : marker.text ∉ after.map Piece.text := by
    intro member
    obtain ⟨part, inside, same⟩ := List.mem_map.mp member
    exact notAfter (isMarker.2.2 part inside same ▸ inside)
  -- A text that no other part has divides the texts in one place only.
  rw [List.map_append, List.map_append, isMiddle]
  by_cases isPresent : present
  · rw [if_pos isPresent, if_pos isPresent, List.map_singleton, List.singleton_append]
    refine ⟨?_, ?_⟩
    · rw [List.count_append, List.count_cons_self, List.count_eq_zero_of_not_mem notTextBefore,
        List.count_eq_zero_of_not_mem notTextAfter]
    · intro front back written
      obtain ⟨sameBefore, -, sameAfter⟩ :=
        (List.append_cons_inj_of_notMem notTextBefore notTextAfter).mp written
      exact ⟨sameBefore.symm, sameAfter.symm⟩
  · rw [if_neg isPresent, if_neg isPresent, List.map_nil, List.nil_append]
    have absent : marker.text ∉ before.map Piece.text ++ after.map Piece.text := by
      simp [notTextBefore, notTextAfter]
    refine ⟨List.count_eq_zero_of_not_mem absent, ?_⟩
    intro front back written
    rw [written] at absent
    exact absurd (List.mem_append_right front List.mem_cons_self) absent

private theorem slashPieces_eq (parameters : List Parameter) :
    slashPieces parameters =
      if ∃ parameter ∈ parameters, parameter.kind = .positionalOnly then [.slash] else [] := by
  have present : (∃ parameter ∈ parameters, parameter.kind = .positionalOnly) ↔
      ¬ ofKind .positionalOnly parameters = [] := by
    simp [ofKind_eq_nil_iff]
  simp only [slashPieces, present, ite_not]

private theorem starPieces_eq (parameters : List Parameter) :
    starPieces parameters =
      if (∃ parameter ∈ parameters, parameter.kind = .keywordOnly) ∧
        ∀ parameter ∈ parameters, parameter.kind ≠ .varPositional then [.star] else [] := by
  have present : ((∃ parameter ∈ parameters, parameter.kind = .keywordOnly) ∧
      ∀ parameter ∈ parameters, parameter.kind ≠ .varPositional) ↔
        ¬ (ofKind .keywordOnly parameters = [] ∨ hasVariadic parameters = true) := by
    simp [ofKind_eq_nil_iff, hasVariadic]
  simp only [starPieces, present, ite_not]

theorem IsSignature.marked {parameters : List Parameter} (signature : IsSignature parameters) :
    Marked parameters (parts (hasVariadic parameters) none parameters) := by
  have noSlash : ∀ kind, Piece.slash ∉ (ofKind kind parameters).map piece := by
    simp [piece]
  have noStar : ∀ kind, Piece.star ∉ (ofKind kind parameters).map piece := by
    simp [piece]
  have divided : layout parameters = ((ofKind .positionalOnly parameters).map piece ++
      (slashPieces parameters ++ ((ofKind .positionalOrKeyword parameters).map piece ++
        (ofKind .varPositional parameters).map piece))) ++
          (starPieces parameters ++ keywordPieces parameters) := by
    simp [layout, tailPieces]
  have slashOnly : Piece.star ∉ slashPieces parameters := by
    rw [slashPieces_eq]
    split <;> simp
  obtain ⟨slashCount, slashPlace⟩ := marker_place (show Piece.slash.IsLegible from trivial)
    signature.isLegible (noSlash _)
    (List.not_mem_append (noSlash _) (slash_not_mem_tailPieces parameters))
    (slashPieces_eq parameters)
  have legible := signature.isLegible
  rw [divided] at legible
  obtain ⟨starCount, starPlace⟩ := marker_place (show Piece.star.IsLegible from trivial) legible
    (List.not_mem_append (noStar _) (List.not_mem_append slashOnly
      (List.not_mem_append (noStar _) (noStar _))))
    (List.not_mem_append (noStar _) (noStar _)) (starPieces_eq parameters)
  rw [parts_eq_layout (inOrder_of_validate signature.valid)]
  constructor
  · exact slashCount
  · intro front back written
    rw [(slashPlace front back written).1, map_text_map_piece]
  · rw [divided]
    exact starCount
  · intro front back written
    rw [divided] at written
    rw [(starPlace front back written).2, keywordPieces, List.map_append, map_text_map_piece,
      map_text_map_piece, List.map_append]

/-- Two signatures have one text exactly if they have the same parameters of the same kinds, as
far as a stub shows them, and each marker stands once where its kind of parameter asks for it. -/
theorem listText_tells_kinds {left right : List Parameter} (ofLeft : IsSignature left)
    (ofRight : IsSignature right) :
    (listText left = listText right ↔ List.Forall₂ Alike left right) ∧
      Marked left (parts (hasVariadic left) none left) :=
  ⟨⟨ofLeft.alike_of_listText ofRight, listText_of_alike⟩, ofLeft.marked⟩

/-- A list with a parameter of each kind but the variadic positional one. -/
private def sorter (default : String) (items : TypeExpr) : List Parameter :=
  [⟨"self", .positionalOnly, none, none⟩,
    ⟨"items", .positionalOrKeyword, some default, some items⟩,
    ⟨"key", .keywordOnly, none, none⟩, ⟨"kw", .varKeyword, none, none⟩]

private theorem isSignature_sorter (default : String) {text : String}
    {found : Resolved TypeExpr} (parsed : TypeExpr.parse text = .ok found) :
    IsSignature (sorter default found.value) where
  valid := by
    have distinct : ["self", "items", "key", "kw"].Nodup := by decide
    have inOrder : List.Pairwise ParameterKind.Precedes
        [.positionalOnly, .positionalOrKeyword, .keywordOnly, .varKeyword] := by decide
    exact Signature.validate_eq_ok_iff.mpr ⟨distinct, inOrder⟩
  names := by
    simp only [sorter, List.forall_mem_cons]
    exact ⟨⟨by decide, List.all_eq_true.mp (by decide)⟩,
      ⟨by decide, List.all_eq_true.mp (by decide)⟩,
      ⟨by decide, List.all_eq_true.mp (by decide)⟩,
      ⟨by decide, List.all_eq_true.mp (by decide)⟩, nofun⟩
  annotations := by
    simp only [sorter, List.forall_mem_cons]
    refine ⟨nofun, ?_, nofun, nofun, nofun⟩
    intro type isType
    exact ⟨text, found, parsed, Option.some_inj.mp isType⟩

/-- Lists that differ only in the wording of a default and in the grouping of a choice. -/
theorem listText_tells_kinds_rewordedDefault :
    ∃ left right, left ≠ right ∧ IsSignature left ∧ IsSignature right ∧
      String.ofList (listText left) = "self, /, items: list[int | str | None] = ..., *, key, **kw" ∧
      listText left = listText right ∧ Marked left (parts (hasVariadic left) none left) := by
  have grouped : TypeExpr.parse "list(int or (str or None))" = .ok (TypeExpr.resolved
      (.generic .list [.union [.name "int", .union [.name "str", .name "None"]]])) := by
    decide +kernel
  have flat : TypeExpr.parse "list(int | str | None)" = .ok (TypeExpr.resolved
      (.generic .list [.union [.name "int", .name "str", .name "None"]])) := by
    decide +kernel
  have ofLeft := isSignature_sorter "()" grouped
  have ofRight := isSignature_sorter "None" flat
  have told := listText_tells_kinds ofLeft ofRight
  refine ⟨_, _, by decide, ofLeft, ofRight, by decide, told.1.mpr ?_, told.2⟩
  exact .cons ⟨rfl, rfl, rfl, rfl⟩ (.cons ⟨rfl, rfl, rfl, by decide⟩ (.cons ⟨rfl, rfl, rfl, rfl⟩
    (.cons ⟨rfl, rfl, rfl, rfl⟩ .nil)))

end Parameter

end TypeStub.Decl
