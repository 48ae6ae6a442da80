import TypeStub.Proofs.Declaration.Tidy

/-!
Contract: what the stub of a module imports, and what for.

Owns:
- the types that occur in declarations, and the texts in documentation that give types to
  what a dump declares;
- `Resolved.Collects`, a value whose types are read from certain texts, together with the
  namespaces that these texts refer to and those of certain modules, and no others;
- `Module.ImportsWhatItUses`, the imports of a module by what is in it, and that every module
  which is assembled has them.

Each builder has one lemma, which says what it collects; the layers above only use that.
-/

namespace TypeStub

/-! ## Types in texts -/

/-- The text is read as a type that refers to the namespace. -/
def TypeExpr.TextRefers (text name : String) : Prop :=
  ∃ found, parse text = .ok found ∧ found.value.Refers name

theorem TypeExpr.textRefers_of_parse {text name : String} {found : Resolved TypeExpr}
    (accepted : parse text = .ok found) : TextRefers text name ↔ found.value.Refers name := by
  constructor
  · rintro ⟨other, again, refers⟩
    rw [accepted] at again
    cases again
    exact refers
  · exact fun refers => ⟨found, accepted, refers⟩

namespace Documentation

/-- What documentation says about the type of a value returned. -/
def returnTexts (raw : String) : List String :=
  returnRows .rtype (dedent raw)

/-- What documentation says about types of parameters and of the value returned. -/
def typeTexts (raw : String) : List String :=
  (paramTypes (dedent raw)).map (·.expr) ++ returnTexts raw

end Documentation

namespace Dump

/-- The texts about types in the documentation of what a class declares for a member. -/
def Class.memberTexts (cls : Class) (profile : Profile) (member : Member) : List String :=
  match cls.classify profile member with
  | .constructor _ => cls.doc.toList.flatMap Documentation.typeTexts
  | .method routine => routine.doc.toList.flatMap Documentation.typeTexts
  | .magicMethod routine => routine.doc.toList.flatMap Documentation.typeTexts
  | .accessor doc => doc.toList.flatMap Documentation.returnTexts
  | .placeholder => []
  | .skipped _ => []

/-- The texts about types in the documentation of what a class declares. -/
def Class.typeTexts (cls : Class) (profile : Profile) : List String :=
  cls.members.flatMap (cls.memberTexts profile)

/-- The texts about types in the documentation of what a module declares for a member. -/
def Member.typeTexts (profile : Profile) (member : Member) : List String :=
  match member.classifyRoot with
  | .classObject cls => cls.typeTexts profile
  | .function routine => routine.doc.toList.flatMap Documentation.typeTexts
  | .unsupported => []
  | .skipped => []

/-- The modules of the bases that a stub names for a member. -/
def Member.baseModules (member : Member) : List String :=
  match member.classifyRoot with
  | .classObject cls => (Decl.Class.namedBases cls).map (·.module)
  | _ => []

/-- The texts about types in the documentation of what a module declares. -/
def Module.typeTexts (module : Module) (profile : Profile) : List String :=
  module.members.flatMap (Member.typeTexts profile)

end Dump

/-! ## Types in declarations -/

namespace Decl

/-- The types of a callable's parameters and of what it returns. -/
def Callable.types (callable : Callable) : List TypeExpr :=
  callable.parameters.filterMap Parameter.annotation ++ callable.returns.toList

/-- The type of an attribute, if it has one. -/
def Attribute.types : Attribute → List TypeExpr
  | .accessor declared => declared.annotation.toList
  | .placeholder _ => []

/-- The types in the declaration of a class. -/
def Class.types (cls : Class) : List TypeExpr :=
  cls.constructor.toList.flatMap Callable.types ++ cls.attributes.flatMap Attribute.types ++
    (cls.methods ++ cls.magicMethods).flatMap Callable.types

/-- The types in the declaration of a module. -/
def Module.types (module : Module) : List TypeExpr :=
  module.classes.flatMap Class.types ++ module.functions.flatMap Callable.types

/-- The types in what a member adds to its class. -/
def Entry.types : Entry → List TypeExpr
  | .constructor callable => callable.types
  | .method callable => callable.types
  | .magicMethod callable => callable.types
  | .attribute declared => declared.types

/-- The types in what a member adds to its module. -/
def RootEntry.types : RootEntry → List TypeExpr
  | .classDecl cls => cls.types
  | .function callable => callable.types
  | .warning _ => []

end Decl

/-! ## Values that collect namespaces -/

/-- The types in the value are read from the texts, and its namespaces are the modules and
what the texts refer to. -/
structure Resolved.Collects {α : Type} (typesOf : α → List TypeExpr)
    (modules texts : List String) (resolved : Resolved α) : Prop where
  types : ∀ type ∈ typesOf resolved.value,
    ∃ text ∈ texts, ∃ found, TypeExpr.parse text = .ok found ∧ found.value = type
  namespaces : ∀ name, name ∈ resolved.namespaces ↔
    name ∈ modules ∨ ∃ text ∈ texts, TypeExpr.TextRefers text name

/-- What a member contributes is collected from the texts, or there are none. -/
def Resolved.Contributes {α : Type} (typesOf : α → List TypeExpr) (modules texts : List String) :
    Option (Resolved α) → Prop
  | some resolved => resolved.Collects typesOf modules texts
  | none => modules = [] ∧ texts = []

namespace Resolved

variable {α β ι : Type} {typesOf : α → List TypeExpr} {modules texts : List String}

/-- The value needs no import that it does not have. -/
theorem Collects.mem_of_refers {resolved : Resolved α}
    (collects : resolved.Collects typesOf modules texts) {type : TypeExpr}
    (member : type ∈ typesOf resolved.value) {name : String} (refers : type.Refers name) :
    name ∈ resolved.namespaces := by
  obtain ⟨text, inTexts, found, accepted, rfl⟩ := collects.types type member
  exact (collects.namespaces name).mpr (.inr ⟨text, inTexts, found, accepted, refers⟩)

theorem collects_bare {value : α} (none : typesOf value = []) :
    (bare value).Collects typesOf [] [] where
  types type member := by
    rw [show typesOf (bare value).value = [] from none] at member
    cases member
  namespaces name := by simp [bare]

theorem Collects.map {resolved : Resolved α} (collects : resolved.Collects typesOf modules texts)
    {otherTypes : β → List TypeExpr} {f : α → β}
    (same : ∀ value, otherTypes (f value) = typesOf value) :
    (resolved.map f).Collects otherTypes modules texts where
  types type member := by
    rw [show otherTypes (resolved.map f).value = typesOf resolved.value from same _] at member
    exact collects.types type member
  namespaces := collects.namespaces

theorem collects_of_parse {text : String} {found : Resolved TypeExpr}
    (accepted : TypeExpr.parse text = .ok found) :
    found.Collects (fun type => [type]) [] [text] where
  types type member := by
    cases List.mem_singleton.mp member
    exact ⟨text, List.mem_cons_self, found, accepted, rfl⟩
  namespaces name := by
    rw [TypeExpr.mem_namespaces_of_parse accepted, ← TypeExpr.textRefers_of_parse accepted]
    simp

private theorem needed_flatMap_iff {items : List ι} {modules texts : ι → List String}
    {name : String} :
    (name ∈ items.flatMap modules ∨ ∃ text ∈ items.flatMap texts, TypeExpr.TextRefers text name) ↔
      ∃ item ∈ items, name ∈ modules item ∨ ∃ text ∈ texts item, TypeExpr.TextRefers text name := by
  constructor
  · rintro (ofModule | ⟨text, inTexts, refers⟩)
    · obtain ⟨item, inItems, inside⟩ := List.mem_flatMap.mp ofModule
      exact ⟨item, inItems, .inl inside⟩
    · obtain ⟨item, inItems, inside⟩ := List.mem_flatMap.mp inTexts
      exact ⟨item, inItems, .inr ⟨text, inside, refers⟩⟩
  · rintro ⟨item, inItems, ofModule | ⟨text, inTexts, refers⟩⟩
    · exact .inl (List.mem_flatMap.mpr ⟨item, inItems, ofModule⟩)
    · exact .inr ⟨text, List.mem_flatMap.mpr ⟨item, inItems, inTexts⟩, refers⟩

/-- Several values collect what each of them does, in whatever order they were made. -/
theorem collects_all {items ordered : List ι} {modules texts : ι → List String}
    {built : List (Option (Resolved α))} (permuted : ordered.Perm items)
    (steps : List.Forall₂ (fun item found => Contributes typesOf (modules item) (texts item) found)
      ordered built) :
    (all (built.filterMap id)).Collects (fun values => values.flatMap typesOf)
      (items.flatMap modules) (items.flatMap texts) where
  types type member := by
    obtain ⟨value, inValues, inside⟩ := List.mem_flatMap.mp member
    obtain ⟨resolved, isKept, rfl⟩ := List.mem_map.mp inValues
    obtain ⟨item, inItems, collects⟩ := Outcome.exists_left_of_kept steps isKept
    obtain ⟨text, inTexts, isRead⟩ := Collects.types collects type inside
    exact ⟨text, List.mem_flatMap.mpr ⟨item, permuted.mem_iff.mp inItems, inTexts⟩, isRead⟩
  namespaces name := by
    rw [mem_namespaces_all, needed_flatMap_iff]
    constructor
    · rintro ⟨resolved, isKept, member⟩
      obtain ⟨item, inItems, collects⟩ := Outcome.exists_left_of_kept steps isKept
      exact ⟨item, permuted.mem_iff.mp inItems, (Collects.namespaces collects name).mp member⟩
    · rintro ⟨item, inItems, needs⟩
      obtain ⟨found, isBuilt, collects⟩ :=
        Outcome.exists_right_of_mem steps (permuted.mem_iff.mpr inItems)
      cases found with
      | none =>
          -- An item without a result has neither modules nor texts, so it needs nothing.
          obtain ⟨noModules, noTexts⟩ := collects
          simp [noModules, noTexts] at needs
      | some resolved =>
          exact ⟨resolved, by simpa using isBuilt, (Collects.namespaces collects name).mpr needs⟩

end Resolved

namespace Decl

open Resolved (Collects Contributes)
open Text

private theorem no_modules {ι : Type} (items : List ι) :
    (items.flatMap fun _ => ([] : List String)) = [] :=
  List.flatMap_eq_nil_iff.mpr fun _ _ => rfl

/-! ## Callables and attributes -/

private theorem collects_directives {callable : String} {real : List TypeStub.Parameter}
    {directives : List TypeDirective} {found : List (Resolved (String × TypeExpr))}
    (accepted : directives.mapM (resolveDirective callable real) = .ok found) :
    (Resolved.all found).Collects (fun entries => entries.map (·.2)) []
      (directives.map (·.expr)) := by
  have steps : List.Forall₂
      (fun (directive : TypeDirective) (found : Option (Resolved (String × TypeExpr))) =>
        Contributes (fun entry => [entry.2]) [] [directive.expr] found)
      directives (found.map some) := by
    rw [List.forall₂_map_right_iff]
    refine (Outcome.mapM_eq_ok_iff.mp accepted).imp ?_
    intro directive resolved isResolved
    obtain ⟨-, type, isType, rfl⟩ := resolveDirective_eq_ok_iff.mp isResolved
    exact (Resolved.collects_of_parse isType).map fun _ => rfl
  have collects := Resolved.collects_all (List.Perm.refl directives) steps
  rw [no_modules, ← List.map_eq_flatMap, List.filterMap_map] at collects
  simpa [← List.map_eq_flatMap] using collects

private theorem collects_return {expr : Option String} {returns : Resolved (Option TypeExpr)}
    (accepted : resolveReturn expr = .ok returns) :
    returns.Collects Option.toList [] expr.toList := by
  cases expr with
  | none =>
      rw [← resolveReturn_none.mp accepted]
      exact Resolved.collects_bare rfl
  | some text =>
      obtain ⟨type, isType, rfl⟩ := resolveReturn_some.mp accepted
      exact (Resolved.collects_of_parse isType).map fun _ => rfl

/-- A callable collects what each of its directives refers to, the overridden ones too. -/
theorem Callable.collects_of_build {name : String} {parameters : List TypeStub.Parameter}
    {doc : Option String} {kind : CallableKind} {built : Resolved Callable}
    (accepted : build name parameters doc kind = .ok built) :
    built.Collects types [] (doc.toList.flatMap Documentation.typeTexts) := by
  cases doc with
  | none =>
      obtain ⟨-, rfl⟩ := build_none_eq_ok_iff.mp accepted
      refine Resolved.collects_bare ?_
      simp [types, annotate, lastType]
  | some raw =>
      obtain ⟨-, parts, divided, ofParts⟩ := build_some_eq_ok_iff.mp accepted
      obtain ⟨directives, returns, typed, returned, rfl⟩ := ofParts_eq_ok_iff.mp ofParts
      obtain ⟨-, sameTypes, sameReturn, -⟩ := Documentation.split_eq_ok_iff.mp divided
      have ofDirectives := collects_directives typed
      have ofReturn := collects_return returned
      have texts : Documentation.typeTexts raw =
          parts.paramTypes.map (·.expr) ++ parts.rtype.toList := by
        rw [Documentation.typeTexts, Documentation.returnTexts, sameTypes, sameReturn]
      rw [Option.toList_some, List.flatMap_singleton, texts]
      constructor
      case types =>
        intro type member
        rcases List.mem_append.mp member with ofParameter | isReturned
        · obtain ⟨parameter, inParameters, annotated⟩ := List.mem_filterMap.mp ofParameter
          obtain ⟨original, -, rfl⟩ := List.mem_map.mp inParameters
          have inTypes : type ∈ (Resolved.all directives).value.map (·.2) :=
            List.mem_map.mpr ⟨_, mem_of_lastType annotated, rfl⟩
          obtain ⟨text, inTexts, isRead⟩ := ofDirectives.types type inTypes
          exact ⟨text, List.mem_append_left _ inTexts, isRead⟩
        · obtain ⟨text, inTexts, isRead⟩ := ofReturn.types type isReturned
          exact ⟨text, List.mem_append_right _ inTexts, isRead⟩
      case namespaces =>
        intro name
        rw [NameSet.mem_union, ofDirectives.namespaces, ofReturn.namespaces]
        simp only [List.mem_append, List.not_mem_nil, false_or, or_and_right, exists_or]

theorem Accessor.collects_of_build {name : String} {doc : Option String}
    {built : Resolved Accessor} (accepted : build name doc = .ok built) :
    built.Collects (fun accessor => accessor.annotation.toList) []
      (doc.toList.flatMap Documentation.returnTexts) := by
  cases doc with
  | none =>
      rw [← build_none_eq_ok_iff.mp accepted]
      exact Resolved.collects_bare rfl
  | some raw =>
      obtain ⟨expr, type, text, isRow, returned, -, rfl⟩ := build_some_eq_ok_iff.mp accepted
      have ofReturn := collects_return returned
      rw [Option.toList_some, List.flatMap_singleton, Documentation.returnTexts,
        Documentation.single_eq_ok_iff.mp isRow]
      exact ⟨ofReturn.types, ofReturn.namespaces⟩

/-! ## Classes -/

namespace Class

private theorem contributes_of_brings {cls : Dump.Class} {profile : Profile}
    {member : Dump.Member} {found : Option (Resolved Entry)}
    (brings : Brings cls profile member found) :
    Contributes Entry.types [] (cls.memberTexts profile member) found := by
  unfold Dump.Class.memberTexts
  cases brings with
  | constructor outcome accepted =>
      rw [outcome]
      exact (Callable.collects_of_build accepted).map fun _ => rfl
  | method outcome accepted =>
      rw [outcome]
      exact (Callable.collects_of_build accepted).map fun _ => rfl
  | magicMethod outcome accepted =>
      rw [outcome]
      exact (Callable.collects_of_build accepted).map fun _ => rfl
  | accessor outcome accepted =>
      rw [outcome]
      exact (Accessor.collects_of_build accepted).map fun _ => rfl
  | placeholder outcome =>
      rw [outcome]
      exact Resolved.collects_bare rfl
  | nothing outcome =>
      rw [outcome]
      exact ⟨rfl, rfl⟩

private theorem mem_types_ofEntries {name : String} {cls : Dump.Class} {entries : List Entry}
    {type : TypeExpr} (member : type ∈ (ofEntries name cls entries).types) :
    type ∈ entries.flatMap Entry.types := by
  simp only [types, ofEntries, List.mem_append, List.mem_flatMap, Option.mem_toList] at member
  rcases member with (⟨callable, isHead, inside⟩ | ⟨declared, selected, inside⟩) |
    ⟨callable, isMethod | isMagic, inside⟩
  · refine mem_flatMap_of_selected ?_ (List.mem_of_mem_head? isHead) inside
    rintro (_ | _ | _ | _) found isFound <;> cases isFound
    rfl
  · refine mem_flatMap_of_selected ?_ selected inside
    rintro (_ | _ | _ | _) found isFound <;> cases isFound
    rfl
  · refine mem_flatMap_of_selected ?_ isMethod inside
    rintro (_ | _ | _ | _) found isFound <;> cases isFound
    rfl
  · refine mem_flatMap_of_selected ?_ isMagic inside
    rintro (_ | _ | _ | _) found isFound <;> cases isFound
    rfl

/-- A class collects the modules of its bases, and what the documentation of its members
refers to. -/
theorem collects_of_assemble {name : String} {cls : Dump.Class} {profile : Profile}
    {assembled : Resolved Class} (accepted : assemble name cls profile = .ok assembled) :
    assembled.Collects types ((namedBases cls).map (·.module)) (cls.typeTexts profile) := by
  obtain ⟨built, steps, rfl⟩ := assemble_eq_ok_iff.mp accepted
  have collects := Resolved.collects_all (Dump.stablyOrdered_sortedMembers cls.members).permuted
    (steps.imp fun _ _ => contributes_of_brings)
  constructor
  case types => exact fun type member => collects.types type (mem_types_ofEntries member)
  case namespaces =>
    intro name
    rw [NameSet.mem_union, NameSet.mem_ofList, collects.namespaces, no_modules,
      or_iff_right List.not_mem_nil]
    exact Iff.rfl

end Class

/-! ## Modules -/

namespace Module

private theorem contributes_of_brings {profile : Profile} {member : Dump.Member}
    {found : Option (Resolved RootEntry)} (brings : Brings profile member found) :
    Contributes RootEntry.types member.baseModules (member.typeTexts profile) found := by
  unfold Dump.Member.baseModules Dump.Member.typeTexts
  cases brings with
  | classDecl outcome accepted =>
      rw [outcome]
      exact (Class.collects_of_assemble accepted).map fun _ => rfl
  | function outcome accepted =>
      rw [outcome]
      exact (Callable.collects_of_build accepted).map fun _ => rfl
  | warning outcome =>
      rw [outcome]
      exact Resolved.collects_bare rfl
  | nothing outcome =>
      rw [outcome]
      exact ⟨rfl, rfl⟩

private theorem mem_types {entries : List RootEntry} {type : TypeExpr}
    (member : (∃ cls ∈ entries.filterMap RootEntry.class?, type ∈ cls.types) ∨
      ∃ callable ∈ entries.filterMap RootEntry.function?, type ∈ callable.types) :
    type ∈ entries.flatMap RootEntry.types := by
  rcases member with ⟨cls, isClass, inside⟩ | ⟨callable, isFunction, inside⟩
  · refine mem_flatMap_of_selected ?_ isClass inside
    rintro (_ | _ | _) found isFound <;> cases isFound
    rfl
  · refine mem_flatMap_of_selected ?_ isFunction inside
    rintro (_ | _ | _) found isFound <;> cases isFound
    rfl

/-! ## Rows that import -/

/-- The row imports something. -/
def isImportRow (row : List Char) : Bool :=
  "import ".toList.isPrefixOf row

private theorem isTopRow_of_isImportRow {row : List Char} (isImport : isImportRow row = true) :
    Layout.isTopRow row = true := by
  obtain ⟨rest, rfl⟩ := List.isPrefixOf_iff_prefix.mp isImport
  exact Layout.isTopRow_of_head (c := 'i') rfl (by decide)

/-- A tidy module has one row for each import, and no other row imports anything. -/
theorem filter_isImportRow_rows {module : Module} (tidy : module.IsTidy) :
    (rows module.text).filter isImportRow = module.namespaces.items.map importRow := by
  have ofTop : (rows module.text).filter isImportRow = module.outline.filter isImportRow := by
    rw [← topRows_text tidy, Layout.topRows, List.filter_filter]
    refine List.filter_congr fun row _ => ?_
    cases isImport : isImportRow row with
    | false => rfl
    | true => rw [isTopRow_of_isImportRow isImport, Bool.and_true]
  have ofImports : (module.namespaces.items.map importRow).filter isImportRow =
      module.namespaces.items.map importRow := by
    rw [List.filter_eq_self]
    intro row member
    obtain ⟨name, -, rfl⟩ := List.mem_map.mp member
    exact List.isPrefixOf_iff_prefix.mpr (List.prefix_append _ _)
  have ofClasses : (module.classes.flatMap fun cls =>
      ["@typing.final".toList, cls.header]).filter isImportRow = [] := by
    rw [List.filter_eq_nil_iff]
    intro row member
    obtain ⟨cls, -, inside⟩ := List.mem_flatMap.mp member
    rcases List.mem_pair.mp inside with rfl | rfl
    · decide
    · exact (Bool.not_eq_true _).mpr rfl
  have ofFunctions : (module.functions.map Callable.headRow).filter isImportRow = [] := by
    rw [List.filter_eq_nil_iff]
    intro row member
    obtain ⟨callable, -, rfl⟩ := List.mem_map.mp member
    exact (Bool.not_eq_true _).mpr rfl
  rw [ofTop, outline, List.filter_cons_of_neg (by decide), List.filter_append, List.filter_append,
    ofImports, ofClasses, ofFunctions, List.append_nil, List.append_nil]

/-! ## Modules that import what they use -/

/-- The class is declared for the member, with the bases that a stub names. -/
structure DeclaresClass (member : Dump.Member) (original : Dump.Class) (cls : Class) : Prop where
  outcome : member.classifyRoot = .classObject original
  name : cls.name = member.name
  bases : cls.bases = (Class.namedBases original).map Dump.Class.reference

/-- The imports of the declaration are what its types and its bases need, with `typing`, and
its text has one row for each of them. -/
structure ImportsWhatItUses (dump : Dump.Module) (profile : Profile) (module : Module) :
    Prop where
  /-- What the types refer to at any depth is imported. -/
  types : ∀ type ∈ module.types, ∀ name, type.Refers name → name ∈ module.namespaces
  /-- The modules of the bases are imported. -/
  bases : ∀ cls ∈ module.classes, ∃ member ∈ dump.members, ∃ original,
    DeclaresClass member original cls ∧
      ∀ base ∈ Class.namedBases original, base.module ∈ module.namespaces
  /-- Nothing is imported without a reason. -/
  namespaces : ∀ name, name ∈ module.namespaces ↔
    name = "typing" ∨ (∃ member ∈ dump.members, name ∈ member.baseModules) ∨
      ∃ text ∈ dump.typeTexts (extendedProfile dump profile), TypeExpr.TextRefers text name
  ascending : module.namespaces.items.Pairwise (· < ·)
  /-- The imports stand together at the top of the text, before a blank line or its end. -/
  header : ∃ below, module.text =
      unrows ("from __future__ import annotations".toList ::
        module.namespaces.items.map importRow) ++ '\n' :: below ∧
    (below = [] ∨ below.head? = some '\n')
  /-- No other row imports anything, if names have no line feeds. -/
  importRows : dump.InLine →
    (rows module.text).filter isImportRow = module.namespaces.items.map importRow

private theorem text_begins (module : Module) :
    ∃ below, module.text = module.header ++ '\n' :: below ∧
      (below = [] ∨ below.head? = some '\n') := by
  rw [text, blocks]
  cases later : module.classes.map Class.text ++
      module.functions.map fun callable => callable.text [] with
  | nil => exact ⟨[], by simp, .inl rfl⟩
  | cons block others =>
      refine ⟨'\n' :: (['\n', '\n'].intercalate (block :: others) ++ ['\n']), ?_, .inr rfl⟩
      rw [List.intercalate_cons_of_ne_nil (List.cons_ne_nil block others)]
      simp

private theorem declaresClass_of_brings {profile : Profile} {member : Dump.Member}
    {found : Option (Resolved RootEntry)} (brings : Brings profile member found) {cls : Class}
    (isClass : (found.bind fun entry => entry.value.class?) = some cls) :
    ∃ original, DeclaresClass member original cls := by
  cases brings with
  | @classDecl original resolved outcome accepted =>
      cases isClass
      obtain ⟨built, -, rfl⟩ := Class.assemble_eq_ok_iff.mp accepted
      exact ⟨original, outcome, rfl, rfl⟩
  | function => cases isClass
  | warning => cases isClass
  | nothing => cases isClass

/-- A module that is assembled imports what its types and bases refer to and nothing else. -/
theorem importsWhatItUses_of_assemble {dump : Dump.Module} {profile : Profile}
    {assembled : Assembled} (accepted : assemble dump profile = .ok assembled) :
    ImportsWhatItUses dump profile assembled.module := by
  have tidy := isTidy_of_assemble accepted
  obtain ⟨built, steps, rfl⟩ := assemble_eq_ok_iff.mp accepted
  have isOrdered := Dump.stablyOrdered_sortedMembers dump.members
  have collects := Resolved.collects_all isOrdered.permuted
    (steps.imp fun _ _ => contributes_of_brings)
  have namespaces : ∀ name,
      name ∈ (Resolved.all (built.filterMap id)).namespaces.insert "typing" ↔
        name = "typing" ∨ (∃ member ∈ dump.members, name ∈ member.baseModules) ∨
          ∃ text ∈ dump.typeTexts (extendedProfile dump profile),
            TypeExpr.TextRefers text name := by
    intro name
    rw [NameSet.mem_insert, collects.namespaces, List.mem_flatMap]
    rfl
  constructor
  case types =>
    intro type member name refers
    have inEntries := mem_types (by simpa [types] using member)
    exact NameSet.mem_insert.mpr (.inr (collects.mem_of_refers inEntries refers))
  case bases =>
    intro cls inClasses
    rw [filterMap_values, List.mem_filterMap] at inClasses
    obtain ⟨found, inBuilt, isClass⟩ := inClasses
    obtain ⟨member, inSorted, brings⟩ := Outcome.exists_left_of_mem steps inBuilt
    have inMembers := isOrdered.permuted.mem_iff.mp inSorted
    obtain ⟨original, declares⟩ := declaresClass_of_brings brings isClass
    refine ⟨member, inMembers, original, declares, ?_⟩
    intro base inBases
    refine (namespaces base.module).mpr (.inr (.inl ⟨member, inMembers, ?_⟩))
    rw [Dump.Member.baseModules, declares.outcome]
    exact List.mem_map.mpr ⟨base, inBases, rfl⟩
  case namespaces => exact namespaces
  case ascending => exact NameSet.ascending _
  case header => exact text_begins _
  case importRows => exact fun inLine => filter_isImportRow_rows (tidy inLine)

/-- A module with a class that has a base elsewhere and a type from a third module. -/
def garden : Dump.Module where
  name := "garden"
  doc := none
  members :=
    [⟨"Tree", .classObject
        ⟨"Tree", "garden", "", none,
          [⟨"Plant", "flora", "", none, [], [], false, none⟩,
            ⟨"object", "builtins", "", none, [], [], false, none⟩],
          [⟨"leaves", .routine ⟨true, some ":rtype: list(iter(bio.Leaf))", none⟩⟩], false, none⟩⟩]
  objectMembers := []

theorem importsWhatItUses_of_assemble_garden :
    ∃ assembled, assemble garden .standard = .ok assembled ∧
      assembled.module.namespaces.items = ["bio", "flora", "typing"] ∧
      ImportsWhatItUses garden .standard assembled.module := by
  have imports : (assemble garden .standard).map (·.module.namespaces.items) =
      .ok ["bio", "flora", "typing"] := by decide +kernel
  obtain ⟨assembled, accepted, items⟩ := Outcome.map_eq_ok_iff.mp imports
  exact ⟨assembled, accepted, items, importsWhatItUses_of_assemble accepted⟩

end Module

end Decl

end TypeStub
