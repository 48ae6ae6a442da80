import TypeStub.Proofs.Declaration.Imports
import TypeStub.Proofs.Documentation.Dedent
import TypeStub.Proofs.TypeExpr.Printer

/-!
Contract: documentation made from a declaration.

Owns:
- `Callable.rederivedDoc`, a text that gives the types of a declaration again, row by row;
- that a callable built from this text has the parameters and the type returned of the
  declaration, if its types read back.
-/

namespace TypeStub

open Text

/-- The parameters that a callable really has stay as they are. -/
theorem CallableKind.realParameters_realParameters (kind : CallableKind)
    (parameters : List Parameter) :
    kind.realParameters (kind.realParameters parameters) = kind.realParameters parameters := by
  unfold realParameters
  by_cases needsSelf : kind = .constructor ∧ parameters.head?.map (·.name) ≠ some "self"
  · rw [if_pos needsSelf, if_neg (by simp [Parameter.plain])]
  · rw [if_neg needsSelf, if_neg needsSelf]

namespace Decl

/-! ## Documentation from a declaration -/

/-- The parameter as a host reports it. -/
def Parameter.reported (parameter : Parameter) : TypeStub.Parameter :=
  ⟨parameter.name, parameter.kind, parameter.default⟩

/-- The row that gives a type to a parameter. -/
def typeRow (entry : String × TypeExpr) : List Char :=
  ":type ".toList ++ (entry.1.toList ++ (": ".toList ++ entry.2.docText))

/-- The row that gives the type of the value returned. -/
def returnRow (type : TypeExpr) : List Char :=
  ":rtype: ".toList ++ type.docText

namespace Callable

/-- The names of parameters that have a type, with their types. -/
def annotations (callable : Callable) : List (String × TypeExpr) :=
  callable.parameters.filterMap fun parameter =>
    parameter.annotation.map fun type => (parameter.name, type)

/-- A row of text, then one for each type. -/
def rederivedRows (callable : Callable) : List (List Char) :=
  "Re-derived.".toList ::
    (callable.annotations.map typeRow ++ callable.returns.toList.map returnRow)

/-- Documentation that gives the types of the callable. -/
def rederivedDoc (callable : Callable) : String :=
  String.ofList (unrows callable.rederivedRows)

end Callable

/-! ## What the rows say -/

/-- The type as it is read from its row. -/
def writtenType (type : TypeExpr) : String :=
  String.ofList (Directive.payload (' ' :: type.docText))

/-- The blanks that a row loses mean nothing to the reader of types. -/
private theorem parse_writtenType {type : TypeExpr} {found : Resolved TypeExpr}
    (accepted : TypeExpr.parse type.toDoc = .ok found) :
    TypeExpr.parse (writtenType type) = .ok found := by
  have sameTokens : Token.ofText (writtenType type).toList = Token.ofText type.toDoc.toList := by
    rw [writtenType, String.toList_ofList, Directive.payload,
      Token.ofText_trimEndBy fun _ => Directive.isBlank_of_isRowEnd,
      Token.ofText_dropWhile fun _ => Directive.isBlank_of_isSpaceOrTab, TypeExpr.toDoc,
      String.toList_ofList]
    exact Token.ofText_append_blank (by decide) [] type.docText
  rw [TypeExpr.parse_eq_ok_iff, sameTokens]
  exact TypeExpr.parse_eq_ok_iff.mp accepted

private theorem typeOfRow?_typeRow {entry : String × TypeExpr}
    (isName : Directive.IsName entry.1.toList) :
    Directive.typeOfRow? (typeRow entry) =
      some ⟨entry.1, writtenType entry.2⟩ := by
  have written : Directive.namedType? ([' '] ++ (entry.1.toList ++ ':' :: ' ' :: entry.2.docText)) =
      some ⟨String.ofList entry.1.toList, writtenType entry.2⟩ :=
    Directive.namedType?_written (by simp) (List.all_eq_true.mp (by decide)) isName
  rw [String.ofList_toList] at written
  exact written

private theorem typeOfRow?_returnRow (type : TypeExpr) :
    Directive.typeOfRow? (returnRow type) = none :=
  rfl

private theorem returnOfRow?_typeRow (kind : ReturnDirective)
    (entry : String × TypeExpr) :
    Directive.returnOfRow? kind (typeRow entry) = none := by
  cases kind <;> rfl

/-! ## Callables whose types read back -/

namespace Callable

/-- Types are given to identifiers, none of them twice, and all of them read back. -/
structure Rereads (callable : Callable) : Prop where
  distinct : (callable.parameters.map (·.name)).Nodup
  names : ∀ entry ∈ callable.annotations, Directive.IsName entry.1.toList
  types : ∀ type ∈ callable.types, TypeExpr.parse type.toDoc = .ok type.resolved

variable {callable : Callable}

theorem mem_annotations {name : String} {type : TypeExpr} :
    (name, type) ∈ callable.annotations ↔
      ∃ parameter ∈ callable.parameters, parameter.annotation = some type ∧
        parameter.name = name := by
  simp only [annotations, List.mem_filterMap, Option.map_eq_some_iff, Prod.mk.injEq]
  constructor
  · rintro ⟨parameter, member, found, annotated, named, rfl⟩
    exact ⟨parameter, member, annotated, named⟩
  · rintro ⟨parameter, member, annotated, named⟩
    exact ⟨parameter, member, type, annotated, named, rfl⟩

private theorem type_mem_types {entry : String × TypeExpr}
    (member : entry ∈ callable.annotations) : entry.2 ∈ callable.types := by
  obtain ⟨parameter, inParameters, annotated, -⟩ := mem_annotations.mp member
  exact List.mem_append_left _ (List.mem_filterMap.mpr ⟨parameter, inParameters, annotated⟩)

theorem Rereads.wellFormed (rereads : callable.Rereads) {type : TypeExpr}
    (member : type ∈ callable.types) : type.WellFormed :=
  (TypeExpr.wellFormed_of_parse (rereads.types type member)).1

/-! ### The rows of the documentation -/

private theorem isFlush_of_onlySpaces {row : List Char}
    (begins : row.head?.any (fun c => !isBlank c) = true) (onlySpaces : TypeExpr.OnlySpaces row) :
    Documentation.IsFlush row where
  begins := begins
  noTab member := absurd (onlySpaces '\t' member (by decide)) (by decide)
  noFeed member := absurd (onlySpaces '\n' member (by decide)) (by decide)
  noReturn member := absurd (onlySpaces '\r' member (by decide)) (by decide)

private theorem onlySpaces_of_isName {name : List Char} (isName : Directive.IsName name) :
    TypeExpr.OnlySpaces name := by
  refine TypeExpr.onlySpaces_of_isInline fun c member => ?_
  have part : Value.isIdentifierPart c = true := by
    rw [Value.isIdentifierPart, Bool.or_eq_true]
    exact .inl (isName.2 c member)
  exact TypeExpr.isInline_of_isIdentifierPart part

private theorem Rereads.isFlush_rederivedRows (rereads : callable.Rereads) :
    ∀ row ∈ callable.rederivedRows, Documentation.IsFlush row := by
  intro row member
  rcases List.mem_cons.mp member with rfl | later
  · exact isFlush_of_onlySpaces (by decide) (by decide)
  rcases List.mem_append.mp later with ofParameter | ofReturn
  · obtain ⟨entry, inside, rfl⟩ := List.mem_map.mp ofParameter
    have ofName := onlySpaces_of_isName (rereads.names entry inside)
    have ofType := (rereads.wellFormed (type_mem_types inside)).onlySpaces_docText
    exact isFlush_of_onlySpaces rfl (TypeExpr.onlySpaces_append (by decide)
      (TypeExpr.onlySpaces_append ofName (TypeExpr.onlySpaces_append (by decide) ofType)))
  · obtain ⟨type, inside, rfl⟩ := List.mem_map.mp ofReturn
    have ofType := (rereads.wellFormed (List.mem_append_right _ inside)).onlySpaces_docText
    exact isFlush_of_onlySpaces rfl (TypeExpr.onlySpaces_append (by decide) ofType)

private theorem Rereads.rows_rederivedDoc (rereads : callable.Rereads) :
    rows callable.rederivedDoc.toList = callable.rederivedRows := by
  rw [rederivedDoc, String.toList_ofList]
  exact Documentation.rows_flush (List.cons_ne_nil _ _) rereads.isFlush_rederivedRows

private theorem Rereads.paramTypes_rederivedDoc (rereads : callable.Rereads) :
    Documentation.paramTypes callable.rederivedDoc =
      callable.annotations.map fun entry => ⟨entry.1, writtenType entry.2⟩ := by
  have ofParameters : (callable.annotations.map typeRow).filterMap Directive.typeOfRow? =
      callable.annotations.map fun entry => ⟨entry.1, writtenType entry.2⟩ := by
    rw [List.filterMap_map, List.filterMap_eq_map_iff_forall_eq_some]
    exact fun entry member => typeOfRow?_typeRow (rereads.names entry member)
  have ofReturn : (callable.returns.toList.map returnRow).filterMap Directive.typeOfRow? = [] := by
    rw [List.filterMap_map, List.filterMap_eq_nil_iff]
    exact fun type _ => typeOfRow?_returnRow type
  rw [Documentation.paramTypes, rereads.rows_rederivedDoc, rederivedRows,
    List.filterMap_cons_none rfl, List.filterMap_append, ofParameters, ofReturn, List.append_nil]

private theorem Rereads.returnRows_rederivedDoc (rereads : callable.Rereads)
    (kind : ReturnDirective) :
    Documentation.returnRows kind callable.rederivedDoc =
      callable.returns.toList.filterMap fun type =>
        Directive.returnOfRow? kind (returnRow type) := by
  have ofText : Directive.returnOfRow? kind "Re-derived.".toList = none := by
    cases kind <;> rfl
  have ofParameters :
      (callable.annotations.map typeRow).filterMap (Directive.returnOfRow? kind) = [] := by
    rw [List.filterMap_map, List.filterMap_eq_nil_iff]
    exact fun entry _ => returnOfRow?_typeRow kind entry
  rw [Documentation.returnRows, rereads.rows_rederivedDoc, rederivedRows,
    List.filterMap_cons_none ofText, List.filterMap_append, ofParameters, List.nil_append,
    List.filterMap_map]
  rfl

/-- What the documentation of a callable says. -/
def rederivedParts (callable : Callable) : Documentation.Parts :=
  ⟨Documentation.description callable.rederivedDoc,
    callable.annotations.map fun entry => ⟨entry.1, writtenType entry.2⟩,
    callable.returns.map writtenType, none⟩

private theorem Rereads.split_rederivedDoc (rereads : callable.Rereads) {ending : String}
    (ends : ending = "" ∨ ending = "\n") :
    Documentation.split (Documentation.dedent (callable.rederivedDoc ++ ending)) =
      .ok callable.rederivedParts := by
  have isClean : Documentation.dedent (callable.rederivedDoc ++ ending) = callable.rederivedDoc :=
    Documentation.dedent_flush (List.cons_ne_nil _ _) rereads.isFlush_rederivedRows ends
  rw [isClean, Documentation.split_eq_ok_iff]
  refine ⟨rfl, rereads.paramTypes_rederivedDoc.symm, ?_, ?_⟩
  · rw [rereads.returnRows_rederivedDoc, rederivedParts]
    cases callable.returns <;> rfl
  · rw [rereads.returnRows_rederivedDoc, rederivedParts]
    cases callable.returns <;> rfl

/-! ### The types read again -/

private theorem Rereads.resolveDirectives (rereads : callable.Rereads) :
    callable.rederivedParts.paramTypes.mapM
        (resolveDirective callable.name (callable.parameters.map Parameter.reported)) =
      .ok (callable.annotations.map fun entry =>
        entry.2.resolved.map fun type => (entry.1, type)) := by
  rw [rederivedParts, Outcome.mapM_eq_ok_iff, List.forall₂_map_left_iff,
    List.forall₂_map_right_iff, List.forall₂_same]
  intro entry member
  obtain ⟨parameter, inParameters, -, named⟩ := mem_annotations.mp member
  have isRead := parse_writtenType (rereads.types entry.2 (type_mem_types member))
  exact resolveDirective_eq_ok_iff.mpr
    ⟨⟨parameter.reported, List.mem_map_of_mem inParameters, named⟩, _, isRead, rfl⟩

private theorem Rereads.resolveReturn (rereads : callable.Rereads) :
    ∃ returns, Decl.resolveReturn callable.rederivedParts.rtype = .ok returns ∧
      returns.value = callable.returns := by
  rw [rederivedParts]
  cases isReturned : callable.returns with
  | none => exact ⟨_, rfl, rfl⟩
  | some type =>
      have inTypes : type ∈ callable.types :=
        List.mem_append_right _ (by rw [isReturned]; exact List.mem_singleton_self type)
      exact ⟨_, resolveReturn_some.mpr ⟨_, parse_writtenType (rereads.types type inTypes), rfl⟩, rfl⟩

private theorem Rereads.nodup_annotations (rereads : callable.Rereads) :
    (callable.annotations.map (·.1)).Nodup := by
  have differ := List.pairwise_map.mp rereads.distinct
  rw [List.nodup_iff_pairwise_ne, List.pairwise_map, annotations, List.pairwise_filterMap]
  refine differ.imp ?_
  intro left right otherName first isFirst second isSecond
  obtain ⟨firstType, -, rfl⟩ := Option.map_eq_some_iff.mp isFirst
  obtain ⟨secondType, -, rfl⟩ := Option.map_eq_some_iff.mp isSecond
  exact otherName

/-- Each parameter gets back the type that it had, and none if it had none. -/
private theorem Rereads.annotate_reported (rereads : callable.Rereads) {parameter : Parameter}
    (member : parameter ∈ callable.parameters) :
    annotate callable.annotations parameter.reported = parameter := by
  have sameType : lastType callable.annotations parameter.name = parameter.annotation := by
    ext type
    rw [lastType_eq_some_iff rereads.nodup_annotations, mem_annotations]
    constructor
    · rintro ⟨other, inside, annotated, sameName⟩
      rwa [List.inj_on_of_nodup_map rereads.distinct inside member sameName] at annotated
    · exact fun annotated => ⟨parameter, member, annotated, rfl⟩
  rw [annotate, Parameter.reported, sameType]

private theorem Rereads.ofParts (rereads : callable.Rereads) (kind : CallableKind) :
    ∃ again, Callable.ofParts callable.name kind (callable.parameters.map Parameter.reported)
        callable.rederivedParts = .ok again ∧
      again.value.parameters = callable.parameters ∧ again.value.returns = callable.returns := by
  obtain ⟨returns, returned, isReturn⟩ := rereads.resolveReturn
  refine ⟨_, ofParts_eq_ok_iff.mpr ⟨_, returns, rereads.resolveDirectives, returned, rfl⟩, ?_,
    isReturn⟩
  have ofTypes : (Resolved.all (callable.annotations.map fun entry =>
      entry.2.resolved.map fun type => (entry.1, type))).value = callable.annotations := by
    rw [Resolved.all, List.map_map]
    exact List.map_id _
  rw [ofTypes, List.map_map]
  exact (List.map_congr_left fun parameter => rereads.annotate_reported).trans (List.map_id _)

/-! ### Callables that are built -/

/-- A callable that is built rereads if each of its types does. -/
theorem rereads_of_build {name : String} {parameters : List TypeStub.Parameter}
    {doc : Option String} {kind : CallableKind} {built : Resolved Callable}
    (accepted : build name parameters doc kind = .ok built)
    (readBack : ∀ type ∈ built.value.types,
      (TypeExpr.parse type.toDoc).map (·.value) = .ok type) : built.value.Rereads := by
  obtain ⟨valid, -, types, areNames, isAnnotated⟩ := exists_types_of_build accepted
  constructor
  case distinct =>
    have sameNames : built.value.parameters.map (·.name) =
        (kind.realParameters parameters).map (·.name) := by
      rw [isAnnotated, List.map_map]
      rfl
    rw [sameNames]
    exact Signature.nodup_of_validate valid
  case names =>
    rintro ⟨parameterName, type⟩ member
    obtain ⟨parameter, inParameters, annotated, rfl⟩ := mem_annotations.mp member
    rw [isAnnotated] at inParameters
    obtain ⟨original, -, rfl⟩ := List.mem_map.mp inParameters
    exact areNames _ (mem_of_lastType annotated)
  case types =>
    intro type member
    obtain ⟨found, isRead, sameType⟩ := Outcome.map_eq_ok_iff.mp (readBack type member)
    obtain ⟨-, isResolved⟩ := TypeExpr.wellFormed_of_parse isRead
    rw [isRead, isResolved, sameType]

/-- Documentation made from a callable is read to the types that it was made from: what is
built from it has the same parameters and returns the same type. That a build takes these types
from the rows of its documentation is part of `build_eq_iff`. -/
theorem build_rederivedDoc {name : String} {parameters : List TypeStub.Parameter}
    {doc : Option String} {kind : CallableKind} {built : Resolved Callable}
    (accepted : build name parameters doc kind = .ok built)
    (readBack : ∀ type ∈ built.value.types,
      (TypeExpr.parse type.toDoc).map (·.value) = .ok type)
    {ending : String} (ends : ending = "" ∨ ending = "\n") :
    ∃ again, build name (built.value.parameters.map Parameter.reported)
        (some (built.value.rederivedDoc ++ ending)) kind = .ok again ∧
      again.value.parameters = built.value.parameters ∧
      again.value.returns = built.value.returns := by
  have rereads := rereads_of_build accepted readBack
  obtain ⟨valid, sameName, types, -, isAnnotated⟩ := exists_types_of_build accepted
  have reported : built.value.parameters.map Parameter.reported =
      kind.realParameters parameters := by
    rw [isAnnotated, List.map_map]
    exact List.map_id _
  obtain ⟨again, rebuilt, same⟩ := rereads.ofParts kind
  refine ⟨again, build_some_eq_ok_iff.mpr ?_, same⟩
  rw [reported, CallableKind.realParameters_realParameters, ← reported, ← sameName]
  exact ⟨reported ▸ valid, _, rereads.split_rederivedDoc ends, rebuilt⟩

/-- The documentation of a constructor, which does not name `self`. -/
def windowDoc : String :=
  "A window.\n\n:type size: tuple(int, int)\n:type title: str or text.Label\n:rtype: None"

theorem build_rederivedDoc_window :
    ∃ built, build "__init__"
        [.plain "size" .positionalOrKeyword, ⟨"title", .keywordOnly, some "None"⟩] (some windowDoc)
          .constructor = .ok built ∧
      built.value.parameters.map (fun parameter => (parameter.name, parameter.annotation)) =
        [("self", none), ("size", some (.generic .tuple [.name "int", .name "int"])),
          ("title", some (.union [.name "str", .name "text.Label"]))] ∧
      built.value.returns = some (.name "None") ∧
      ∃ again, build "__init__" (built.value.parameters.map Parameter.reported)
          (some (built.value.rederivedDoc ++ "\n")) .constructor = .ok again ∧
        again.value.parameters = built.value.parameters ∧
        again.value.returns = built.value.returns := by
  have checked : (build "__init__"
      [.plain "size" .positionalOrKeyword, ⟨"title", .keywordOnly, some "None"⟩] (some windowDoc)
        .constructor).map (fun built =>
          (built.value.parameters.map fun parameter => (parameter.name, parameter.annotation),
            built.value.returns,
            decide (∀ type ∈ built.value.types,
              (TypeExpr.parse type.toDoc).map (·.value) = .ok type))) =
      .ok ([("self", none), ("size", some (.generic .tuple [.name "int", .name "int"])),
          ("title", some (.union [.name "str", .name "text.Label"]))],
        some (.name "None"), true) := by decide +kernel
  obtain ⟨built, accepted, found⟩ := Outcome.map_eq_ok_iff.mp checked
  obtain ⟨annotated, rest⟩ := Prod.mk.inj found
  obtain ⟨returned, readBack⟩ := Prod.mk.inj rest
  exact ⟨built, accepted, annotated, returned,
    build_rederivedDoc accepted (of_decide_eq_true readBack) (.inr rfl)⟩

end Callable

end Decl

end TypeStub
