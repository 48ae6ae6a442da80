import TypeStub.Proofs.Declaration.ParameterList

/-!
Contract: which valid parameter lists a stub can write down.

Owns:
- `IsParameters`, the grammar of parameter lists, production by production;
- `Parameter.DefaultsInPlace`, what validation does not ask of a list;
- `Parameter.isParameterList_listText`, the text of a valid list is in the grammar exactly if its
  defaults are in place.

The names of productions are those of the grammar of the language: `parameters`, `star_etc` and
`kwds`. Annotations are any texts that count as expressions.
-/

namespace TypeStub

/-- The parameter takes its argument by its place. -/
def ParameterKind.isPositional : ParameterKind → Bool
  | .positionalOnly => true
  | .positionalOrKeyword => true
  | _ => false

namespace Decl

/-! ## The grammar -/

/-- Parameters without stars. -/
def named (entries : List Shown) : List Piece :=
  entries.map (.named 0)

/-- None of the parameters has a default: `param_no_default*`. -/
def WithoutDefaults (entries : List Shown) : Prop :=
  ∀ shown ∈ entries, shown.hasDefault = false

/-- Each of the parameters has a default: `param_with_default*`. -/
def WithDefaults (entries : List Shown) : Prop :=
  ∀ shown ∈ entries, shown.hasDefault = true

/-- `kwds`, or nothing. -/
inductive IsKeywords : List Piece → Prop
  | nothing : IsKeywords []
  | kwds {shown : Shown} (noDefault : shown.hasDefault = false) : IsKeywords [.named 2 shown]

/-- `star_etc`, or nothing. A bare star needs a parameter behind it, a starred one does not. -/
inductive IsStarEtc : List Piece → Prop
  | variadic {first : Shown} {maybeDefault : List Shown} {keywords : List Piece}
      (noDefault : first.hasDefault = false) (ofKeywords : IsKeywords keywords) :
      IsStarEtc (.named 1 first :: (named maybeDefault ++ keywords))
  | bare {maybeDefault : List Shown} {keywords : List Piece} (nonempty : maybeDefault ≠ [])
      (ofKeywords : IsKeywords keywords) : IsStarEtc (.star :: (named maybeDefault ++ keywords))
  | keywords {keywords : List Piece} (ofKeywords : IsKeywords keywords) : IsStarEtc keywords

/-- `parameters`, or nothing. The first two cases are `slash_no_default` and
`slash_with_default`. -/
inductive IsParameters : List Piece → Prop
  | slashNoDefault {first plain defaulted : List Shown} {rest : List Piece} (nonempty : first ≠ [])
      (ofFirst : WithoutDefaults first) (ofPlain : WithoutDefaults plain)
      (ofDefaulted : WithDefaults defaulted) (ofRest : IsStarEtc rest) :
      IsParameters (named first ++ (.slash :: (named (plain ++ defaulted) ++ rest)))
  | slashWithDefault {plain first defaulted : List Shown} {rest : List Piece}
      (nonempty : first ≠ []) (ofPlain : WithoutDefaults plain)
      (ofFirst : WithDefaults first) (ofDefaulted : WithDefaults defaulted)
      (ofRest : IsStarEtc rest) :
      IsParameters (named (plain ++ first) ++ (.slash :: (named defaulted ++ rest)))
  | noSlash {plain defaulted : List Shown} {rest : List Piece} (ofPlain : WithoutDefaults plain)
      (ofDefaulted : WithDefaults defaulted) (ofRest : IsStarEtc rest) :
      IsParameters (named (plain ++ defaulted) ++ rest)

/-- The text is derived from the grammar of parameter lists, with the spaces that stubs have. -/
def IsParameterList (expression : List Char → Prop) (text : List Char) : Prop :=
  ∃ pieces, IsParameters pieces ∧ (∀ part ∈ pieces, part.IsOver expression) ∧
    text = Piece.joined pieces

/-! ## Defaults that come last -/

/-- No parameter without a default stands behind one with a default. -/
def DefaultsLast (entries : List Shown) : Prop :=
  entries.Pairwise fun left right => right.hasDefault = false → left.hasDefault = false

private theorem hasDefault_behind {left right : Shown}
    (last : right.hasDefault = false → left.hasDefault = false)
    (hasDefault : left.hasDefault = true) : right.hasDefault = true := by
  cases behind : right.hasDefault with
  | true => rfl
  | false => exact absurd (last behind) (by simp [hasDefault])

theorem defaultsLast_iff {entries : List Shown} :
    DefaultsLast entries ↔ ∃ plain defaulted, entries = plain ++ defaulted ∧
      WithoutDefaults plain ∧ WithDefaults defaulted := by
  constructor
  · intro last
    induction entries with
    | nil => exact ⟨[], [], rfl, nofun, nofun⟩
    | cons shown rest inductionHypothesis =>
        obtain ⟨first, restLast⟩ := List.pairwise_cons.mp last
        cases hasDefault : shown.hasDefault with
        | false =>
            obtain ⟨plain, defaulted, rfl, ofPlain, ofDefaulted⟩ := inductionHypothesis restLast
            exact ⟨shown :: plain, defaulted, rfl, List.forall_mem_cons.mpr ⟨hasDefault, ofPlain⟩,
              ofDefaulted⟩
        | true =>
            refine ⟨[], shown :: rest, rfl, nofun, List.forall_mem_cons.mpr ⟨hasDefault, ?_⟩⟩
            intro other member
            exact hasDefault_behind (first other member) hasDefault
  · rintro ⟨plain, defaulted, rfl, ofPlain, ofDefaulted⟩
    refine List.pairwise_append.mpr ⟨?_, ?_, ?_⟩
    · exact List.pairwise_of_forall_mem_list fun left inLeft _ _ _ => ofPlain left inLeft
    · refine List.pairwise_of_forall_mem_list fun left _ right inRight noDefault => ?_
      rw [ofDefaulted right inRight] at noDefault
      cases noDefault
    · exact fun left inLeft _ _ _ => ofPlain left inLeft

/-! ## What a derivation says -/

/-- The positional parameters at the beginning, before and behind the marker. -/
def leading : List Piece → List Shown
  | .slash :: rest => leading rest
  | .named 0 shown :: rest => shown :: leading rest
  | _ => []

theorem leading_named (entries : List Shown) (rest : List Piece) :
    leading (named entries ++ rest) = entries ++ leading rest := by
  induction entries with
  | nil => rfl
  | cons shown others inductionHypothesis =>
      exact congrArg (shown :: ·) inductionHypothesis

theorem IsStarEtc.leading_eq_nil {pieces : List Piece} (ofPieces : IsStarEtc pieces) :
    leading pieces = [] := by
  cases ofPieces with
  | variadic => rfl
  | bare => rfl
  | keywords ofKeywords => cases ofKeywords <;> rfl

theorem IsParameters.defaultsLast {pieces : List Piece} (ofPieces : IsParameters pieces) :
    DefaultsLast (leading pieces) := by
  rw [defaultsLast_iff]
  cases ofPieces with
  | @slashNoDefault first plain defaulted rest _ ofFirst ofPlain ofDefaulted ofRest =>
      refine ⟨first ++ plain, defaulted, ?_, List.forall_mem_append.mpr ⟨ofFirst, ofPlain⟩,
        ofDefaulted⟩
      rw [leading_named, leading, leading_named, ofRest.leading_eq_nil]
      simp
  | @slashWithDefault plain first defaulted rest _ ofPlain ofFirst ofDefaulted ofRest =>
      refine ⟨plain, first ++ defaulted, ?_, ofPlain,
        List.forall_mem_append.mpr ⟨ofFirst, ofDefaulted⟩⟩
      rw [leading_named, leading, leading_named, ofRest.leading_eq_nil]
      simp
  | @noSlash plain defaulted rest ofPlain ofDefaulted ofRest =>
      refine ⟨plain, defaulted, ?_, ofPlain, ofDefaulted⟩
      rw [leading_named, ofRest.leading_eq_nil, List.append_nil]

/-- A parameter with stars has no default. -/
def Piece.StarredHasNoDefault : Piece → Prop
  | .named (_ + 1) shown => shown.hasDefault = false
  | _ => True

theorem starredHasNoDefault_named (entries : List Shown) :
    ∀ part ∈ named entries, part.StarredHasNoDefault := by
  intro part member
  obtain ⟨shown, -, rfl⟩ := List.mem_map.mp member
  trivial

theorem IsKeywords.starredHasNoDefault {pieces : List Piece} (ofPieces : IsKeywords pieces) :
    ∀ part ∈ pieces, part.StarredHasNoDefault := by
  cases ofPieces with
  | nothing => exact nofun
  | kwds noDefault => exact List.forall_mem_singleton.mpr noDefault

theorem IsStarEtc.starredHasNoDefault {pieces : List Piece} (ofPieces : IsStarEtc pieces) :
    ∀ part ∈ pieces, part.StarredHasNoDefault := by
  cases ofPieces with
  | @variadic first maybeDefault keywords noDefault ofKeywords =>
      refine List.forall_mem_cons.mpr ⟨noDefault, List.forall_mem_append.mpr ⟨?_, ?_⟩⟩
      · exact starredHasNoDefault_named maybeDefault
      · exact ofKeywords.starredHasNoDefault
  | @bare maybeDefault keywords _ ofKeywords =>
      refine List.forall_mem_cons.mpr ⟨trivial, List.forall_mem_append.mpr ⟨?_, ?_⟩⟩
      · exact starredHasNoDefault_named maybeDefault
      · exact ofKeywords.starredHasNoDefault
  | keywords ofKeywords => exact ofKeywords.starredHasNoDefault

theorem IsParameters.starredHasNoDefault {pieces : List Piece} (ofPieces : IsParameters pieces) :
    ∀ part ∈ pieces, part.StarredHasNoDefault := by
  cases ofPieces with
  | slashNoDefault _ _ _ _ ofRest =>
      simp only [List.forall_mem_append, List.forall_mem_cons]
      exact ⟨starredHasNoDefault_named _, trivial, starredHasNoDefault_named _,
        ofRest.starredHasNoDefault⟩
  | slashWithDefault _ _ _ _ ofRest =>
      simp only [List.forall_mem_append, List.forall_mem_cons]
      exact ⟨starredHasNoDefault_named _, trivial, starredHasNoDefault_named _,
        ofRest.starredHasNoDefault⟩
  | noSlash _ _ ofRest =>
      simp only [List.forall_mem_append]
      exact ⟨starredHasNoDefault_named _, ofRest.starredHasNoDefault⟩

/-! ## Lists that validation accepts -/

namespace Parameter

/-- No positional parameter without a default follows one with a default, and a parameter that
takes any number of arguments has no default. -/
structure DefaultsInPlace (parameters : List Parameter) : Prop where
  last : parameters.Pairwise fun left right => left.kind.isPositional = true →
    right.kind.isPositional = true → right.default = none → left.default = none
  variadic : ∀ parameter ∈ parameters, parameter.kind.isVariadic = true → parameter.default = none

theorem DefaultsInPlace.hasDefault_eq_false {parameters : List Parameter}
    (inPlace : DefaultsInPlace parameters) {parameter : Parameter}
    (member : parameter ∈ parameters) (isVariadic : parameter.kind.isVariadic = true) :
    parameter.shown.hasDefault = false := by
  rw [shown, inPlace.variadic parameter member isVariadic]
  rfl

def positional (parameters : List Parameter) : List Parameter :=
  ofKind .positionalOnly parameters ++ ofKind .positionalOrKeyword parameters

def notPositional (parameters : List Parameter) : List Parameter :=
  ofKind .varPositional parameters ++
    (ofKind .keywordOnly parameters ++ ofKind .varKeyword parameters)

theorem InOrder.eq_positional_append {parameters : List Parameter} (inOrder : InOrder parameters) :
    parameters = positional parameters ++ notPositional parameters := by
  rw [positional, notPositional, List.append_assoc]
  exact inOrder.eq_append

theorem isPositional_of_mem_positional {parameters : List Parameter} :
    ∀ parameter ∈ positional parameters, parameter.kind.isPositional = true := by
  refine List.forall_mem_append.mpr ⟨?_, ?_⟩
  all_goals
    intro parameter member
    rw [kind_of_mem_ofKind parameters parameter member]
    rfl

theorem isPositional_of_mem_notPositional {parameters : List Parameter} :
    ∀ parameter ∈ notPositional parameters, parameter.kind.isPositional = false := by
  simp only [notPositional, List.forall_mem_append]
  refine ⟨?_, ?_, ?_⟩
  all_goals
    intro parameter member
    rw [kind_of_mem_ofKind parameters parameter member]
    rfl

theorem map_piece_eq_named {kind : ParameterKind} (noStars : starCount kind = 0)
    (parameters : List Parameter) :
    (ofKind kind parameters).map piece = named ((ofKind kind parameters).map shown) := by
  rw [named, List.map_map]
  refine List.map_congr_left fun parameter member => ?_
  rw [piece, kind_of_mem_ofKind parameters parameter member, noStars]
  rfl

/-- Behind the positional parameters stands a star or nothing. -/
private theorem leading_tailPieces (parameters : List Parameter) :
    leading (tailPieces parameters) = [] := by
  have starred : ∀ (kind : ParameterKind) (rest : List Piece), starCount kind ≠ 0 →
      (ofKind kind parameters = [] → leading rest = []) →
      leading ((ofKind kind parameters).map piece ++ rest) = [] := by
    intro kind rest hasStars otherwise
    cases block : ofKind kind parameters with
    | nil => exact otherwise block
    | cons parameter others =>
        have isKind : parameter.kind = kind :=
          kind_of_mem_ofKind parameters parameter (block ▸ List.mem_cons_self)
        obtain ⟨more, count⟩ := Nat.exists_eq_succ_of_ne_zero hasStars
        rw [List.map_cons, List.cons_append, piece, isKind, count]
        rfl
  rw [tailPieces]
  refine starred .varPositional _ (by decide) fun noVariadic => ?_
  -- Without a variadic parameter it is the bare star that keeps keyword-only ones apart.
  have notVariadic : hasVariadic parameters = false := by
    rw [hasVariadic_eq, noVariadic]
    rfl
  by_cases empty : ofKind .keywordOnly parameters = []
  · rw [starPieces, if_pos (.inl empty), keywordPieces, empty]
    have last := starred .varKeyword [] (by decide) fun _ => rfl
    rwa [List.append_nil] at last
  · rw [starPieces, if_neg (by simp [empty, notVariadic])]
    rfl

theorem leading_layout (parameters : List Parameter) :
    leading (layout parameters) = (positional parameters).map shown := by
  have unmarked := leading_named ((ofKind .positionalOrKeyword parameters).map shown)
    (tailPieces parameters)
  rw [leading_tailPieces, List.append_nil] at unmarked
  have marked : leading (slashPieces parameters ++
      (named ((ofKind .positionalOrKeyword parameters).map shown) ++ tailPieces parameters)) =
        (ofKind .positionalOrKeyword parameters).map shown := by
    unfold slashPieces
    split
    · exact unmarked
    · exact unmarked
  rw [layout, map_piece_eq_named rfl, map_piece_eq_named rfl, leading_named, marked, positional,
    List.map_append]

theorem defaultsLast_positional_iff {parameters : List Parameter} (inOrder : InOrder parameters) :
    DefaultsLast ((positional parameters).map shown) ↔
      parameters.Pairwise fun left right => left.kind.isPositional = true →
        right.kind.isPositional = true → right.default = none → left.default = none := by
  have ofPositional : DefaultsLast ((positional parameters).map shown) ↔
      (positional parameters).Pairwise fun left right => left.kind.isPositional = true →
        right.kind.isPositional = true → right.default = none → left.default = none := by
    rw [DefaultsLast, List.pairwise_map]
    refine List.Pairwise.iff_of_mem fun {left right} inLeft inRight => ?_
    simp [shown, isPositional_of_mem_positional left inLeft,
      isPositional_of_mem_positional right inRight]
  have notBehind : ∀ right ∈ notPositional parameters, right.kind.isPositional ≠ true := by
    intro right member isPositional
    rw [isPositional_of_mem_notPositional right member] at isPositional
    cases isPositional
  rw [ofPositional]
  constructor
  · intro ordered
    rw [inOrder.eq_positional_append]
    refine List.pairwise_append.mpr ⟨ordered, ?_, ?_⟩
    · refine List.pairwise_of_forall_mem_list fun left _ right inRight _ isPositional => ?_
      exact absurd isPositional (notBehind right inRight)
    · intro left _ right inRight _ isPositional
      exact absurd isPositional (notBehind right inRight)
  · intro ordered
    rw [inOrder.eq_positional_append] at ordered
    exact (List.pairwise_append.mp ordered).1

theorem piece_mem_layout {parameters : List Parameter} {parameter : Parameter}
    (member : parameter ∈ parameters) : parameter.piece ∈ layout parameters := by
  have inKind : parameter.piece ∈ (ofKind parameter.kind parameters).map piece :=
    List.mem_map_of_mem (mem_ofKind.mpr ⟨member, rfl⟩)
  simp only [layout, tailPieces, keywordPieces, List.mem_append]
  cases kindIs : parameter.kind <;> rw [kindIs] at inKind <;> simp [inKind]

/-- What a derivation of its text says of a list. -/
theorem defaultsInPlace_of_isParameters {parameters : List Parameter}
    (inOrder : InOrder parameters) (derived : IsParameters (layout parameters)) :
    DefaultsInPlace parameters where
  last := by
    rw [← defaultsLast_positional_iff inOrder, ← leading_layout]
    exact derived.defaultsLast
  variadic := by
    intro parameter member isVariadic
    have noDefault := derived.starredHasNoDefault _ (piece_mem_layout member)
    have hidden : parameter.default.isSome = false := by
      rw [piece] at noDefault
      cases kindIs : parameter.kind <;> rw [kindIs] at noDefault isVariadic
      case varPositional => exact noDefault
      case varKeyword => exact noDefault
      all_goals cases isVariadic
    exact Option.isNone_iff_eq_none.mp (Option.isSome_eq_false_iff.mp hidden)

/-! ## Deriving a list -/

theorem InOrder.eq_nil_or_singleton {parameters : List Parameter} (inOrder : InOrder parameters)
    (kind : ParameterKind) (isVariadic : kind.isVariadic = true) :
    ofKind kind parameters = [] ∨ ∃ parameter ∈ parameters, parameter.kind = kind ∧
      ofKind kind parameters = [parameter] := by
  have ofBlock : (ofKind kind parameters).Pairwise fun left right =>
      left.kind.Precedes right.kind := (List.pairwise_map.mp inOrder).filter _
  have each : ∀ parameter ∈ ofKind kind parameters, parameter ∈ parameters ∧
      parameter.kind = kind := fun _ => mem_ofKind.mp
  match block : ofKind kind parameters with
  | [] => exact .inl rfl
  | [only] =>
      obtain ⟨member, isKind⟩ := each only (block ▸ List.mem_cons_self)
      exact .inr ⟨only, member, isKind, rfl⟩
  | first :: second :: more =>
      rw [block] at ofBlock each
      have precedes := List.rel_of_pairwise_cons ofBlock List.mem_cons_self
      rw [(each first (by simp)).2, (each second (by simp)).2] at precedes
      rcases precedes with before | ⟨-, notVariadic⟩
      · exact absurd before (Nat.lt_irrefl _)
      · rw [isVariadic] at notVariadic
        cases notVariadic

theorem isKeywords_varKeyword {parameters : List Parameter} (inOrder : InOrder parameters)
    (inPlace : DefaultsInPlace parameters) :
    IsKeywords ((ofKind .varKeyword parameters).map piece) := by
  rcases inOrder.eq_nil_or_singleton .varKeyword rfl with none | ⟨last, member, isKind, one⟩
  · rw [none]
    exact .nothing
  · have plain : last.shown.hasDefault = false :=
      inPlace.hasDefault_eq_false member (isKind ▸ rfl)
    rw [one, List.map_singleton, piece, isKind]
    exact .kwds plain

theorem isStarEtc_tailPieces {parameters : List Parameter} (inOrder : InOrder parameters)
    (inPlace : DefaultsInPlace parameters) : IsStarEtc (tailPieces parameters) := by
  have ofKeywords := isKeywords_varKeyword inOrder inPlace
  have keywordOnly := map_piece_eq_named (show starCount .keywordOnly = 0 from rfl) parameters
  rw [tailPieces, keywordPieces, keywordOnly]
  rcases inOrder.eq_nil_or_singleton .varPositional rfl with none | ⟨first, member, isKind, one⟩
  · have notVariadic : hasVariadic parameters = false := by
      rw [hasVariadic_eq, none]
      rfl
    rw [none, List.map_nil, List.nil_append]
    by_cases empty : ofKind .keywordOnly parameters = []
    · rw [starPieces, if_pos (.inl empty), empty]
      exact .keywords ofKeywords
    · rw [starPieces, if_neg (by simp [empty, notVariadic])]
      exact .bare (by simpa using empty) ofKeywords
  · have variadic : hasVariadic parameters = true := by
      rw [hasVariadic_eq, one]
      rfl
    have plain : first.shown.hasDefault = false :=
      inPlace.hasDefault_eq_false member (isKind ▸ rfl)
    rw [one, List.map_singleton, piece, isKind, starPieces, if_pos (.inr variadic)]
    exact .variadic plain ofKeywords

/-- A list whose defaults are in place is derived, the marker being behind the positional-only
parameters. Which production derives it depends on whether one of these has a default. -/
theorem isParameters_layout {parameters : List Parameter} (inOrder : InOrder parameters)
    (inPlace : DefaultsInPlace parameters) : IsParameters (layout parameters) := by
  have ofRest := isStarEtc_tailPieces inOrder inPlace
  have last := (defaultsLast_positional_iff inOrder).mpr inPlace.last
  rw [layout, map_piece_eq_named rfl, map_piece_eq_named rfl, slashPieces]
  rw [positional, List.map_append] at last
  by_cases empty : ofKind .positionalOnly parameters = []
  · rw [empty, List.map_nil, List.nil_append] at last
    obtain ⟨plain, defaulted, divided, ofPlain, ofDefaulted⟩ := defaultsLast_iff.mp last
    rw [if_pos empty, empty, divided]
    exact .noSlash ofPlain ofDefaulted ofRest
  · rw [if_neg empty]
    obtain ⟨ofFirst, ofSecond, across⟩ := List.pairwise_append.mp last
    obtain ⟨plain, defaulted, divided, ofPlain, ofDefaulted⟩ := defaultsLast_iff.mp ofFirst
    by_cases noneDefaulted : defaulted = []
    · obtain ⟨more, later, dividedSecond, ofMore, ofLater⟩ := defaultsLast_iff.mp ofSecond
      rw [divided, dividedSecond, noneDefaulted, List.append_nil]
      refine .slashNoDefault ?_ ofPlain ofMore ofLater ofRest
      intro plainEmpty
      rw [plainEmpty, noneDefaulted] at divided
      exact empty (List.map_eq_nil_iff.mp divided)
    · rw [divided]
      refine .slashWithDefault noneDefaulted ofPlain ofDefaulted ?_ ofRest
      -- Behind a default among the positional-only parameters all others have one.
      intro other member
      obtain ⟨shown, inDefaulted⟩ := List.exists_mem_of_ne_nil defaulted noneDefaulted
      have inFirst : shown ∈ (ofKind .positionalOnly parameters).map Parameter.shown := by
        rw [divided]
        exact List.mem_append_right _ inDefaulted
      exact hasDefault_behind (across shown inFirst other member) (ofDefaulted shown inDefaulted)

/-! ## The text of a list -/

/-- The text of a valid list is derived if its defaults are in place. Where annotations are texts
of types, it is derived in no other case, as a text is that of one list of parts only. -/
theorem isParameterList_listText {parameters : List Parameter} {expression : List Char → Prop}
    (valid : Signature.validate (parameters.map reported) = .ok ())
    (names : ∀ parameter ∈ parameters, Directive.IsName parameter.name.toList)
    (annotations : ∀ parameter ∈ parameters, ∀ type ∈ parameter.annotation,
      expression type.stubText) :
    (DefaultsInPlace parameters → IsParameterList expression (listText parameters)) ∧
      ((∀ text, expression text → TypeExpr.IsTypeText text) →
        IsParameterList expression (listText parameters) → DefaultsInPlace parameters) := by
  have inOrder := inOrder_of_validate valid
  have ofLayout := isOver_of_mem_layout names annotations
  rw [listText_eq_joined inOrder]
  constructor
  · intro inPlace
    exact ⟨layout parameters, isParameters_layout inOrder inPlace, ofLayout, rfl⟩
  · rintro ofTypes ⟨pieces, derived, ofPieces, same⟩
    have legible : ∀ parts : List Piece, (∀ part ∈ parts, part.IsOver expression) →
        ∀ part ∈ parts, part.IsLegible := fun _ each part member => (each part member).imp ofTypes
    have isLayout := (Piece.joined_inj (legible _ ofLayout) (legible _ ofPieces)).mp same
    rw [← isLayout] at derived
    exact defaultsInPlace_of_isParameters inOrder derived

/-- Validation accepts a default before a parameter without one, and a default of a parameter
that takes any number of arguments. -/
theorem isParameterList_listText_misplaced :
    Signature.validate [⟨"a", .positionalOrKeyword, some "1"⟩, ⟨"b", .positionalOrKeyword, none⟩] =
        .ok () ∧
      "a=..., b".toList = listText [⟨"a", .positionalOrKeyword, some "1", none⟩,
        ⟨"b", .positionalOrKeyword, none, none⟩] ∧
      ¬ IsParameterList TypeExpr.IsTypeText "a=..., b".toList ∧
      Signature.validate [⟨"args", .varPositional, some "()"⟩] = .ok () ∧
      "*args=...".toList = listText [⟨"args", .varPositional, some "()", none⟩] ∧
      ¬ IsParameterList TypeExpr.IsTypeText "*args=...".toList := by
  have misplaced : ¬ IsParameterList TypeExpr.IsTypeText (listText
      [⟨"a", .positionalOrKeyword, some "1", none⟩, ⟨"b", .positionalOrKeyword, none, none⟩]) := by
    intro derived
    have inPlace := (isParameterList_listText (by decide)
      (by
        simp only [List.forall_mem_cons]
        exact ⟨⟨by decide, List.all_eq_true.mp (by decide)⟩,
          ⟨by decide, List.all_eq_true.mp (by decide)⟩, nofun⟩)
      (by simp)).2 (fun _ => id) derived
    exact absurd inPlace.last (by decide)
  have variadic : ¬ IsParameterList TypeExpr.IsTypeText
      (listText [⟨"args", .varPositional, some "()", none⟩]) := by
    intro derived
    have inPlace := (isParameterList_listText (by decide)
      (List.forall_mem_singleton.mpr ⟨by decide, List.all_eq_true.mp (by decide)⟩)
      (by simp)).2 (fun _ => id) derived
    exact absurd inPlace.variadic (by decide)
  exact ⟨by decide, by decide, misplaced, by decide, by decide, variadic⟩

end Parameter

end Decl

end TypeStub
