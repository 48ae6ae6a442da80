import TypeStub.Proofs.Declaration.Assembly
import TypeStub.Proofs.Documentation.Description

/-!
Contract: the docstrings of declarations.

Owns:
- `Module.docstrings`, the docstrings of a module's classes, of their callables and of its
  functions;
- that each of them is the description of some text, and so has no directive about types.

Does not own: the documentation of attributes, which is what a row says about the value returned.
-/

namespace TypeStub.Decl

open Documentation (description)
open Text

/-! ## Docstrings -/

/-- The docstring of a callable, if it has one. -/
def Callable.docstrings (callable : Callable) : List String :=
  callable.doc.toList

/-- The docstring that an entry brings to its class. -/
def Entry.docstrings : Entry → List String
  | .constructor callable => callable.docstrings
  | .method callable => callable.docstrings
  | .magicMethod callable => callable.docstrings
  | .attribute _ => []

/-- The docstrings of a class and of its callables. -/
def Class.docstrings (cls : Class) : List String :=
  cls.doc.toList ++
    (cls.constructor.toList ++ (cls.methods ++ cls.magicMethods)).flatMap Callable.docstrings

/-- The docstrings that an entry brings to its module. -/
def RootEntry.docstrings : RootEntry → List String
  | .classDecl cls => cls.docstrings
  | .function callable => callable.docstrings
  | .warning _ => []

/-- The docstrings of the classes, their callables and the functions of a module. -/
def Module.docstrings (module : Module) : List String :=
  module.classes.flatMap Class.docstrings ++ module.functions.flatMap Callable.docstrings

/-! ## Where they come from -/

/-- The text is the description in some documentation. -/
def IsDescription (text : String) : Prop :=
  ∃ raw, description raw = text

theorem Callable.isDescription_of_build {name : String} {parameters : List TypeStub.Parameter}
    {doc : Option String} {kind : CallableKind} {built : Resolved Callable}
    (accepted : build name parameters doc kind = .ok built) :
    ∀ text ∈ built.value.docstrings, IsDescription text := by
  intro text member
  cases doc with
  | none =>
      obtain ⟨-, rfl⟩ := build_none_eq_ok_iff.mp accepted
      cases member
  | some raw =>
      obtain ⟨-, parts, divided, ofParts⟩ := build_some_eq_ok_iff.mp accepted
      obtain ⟨directives, returns, -, -, rfl⟩ := ofParts_eq_ok_iff.mp ofParts
      obtain ⟨isDescription, -⟩ := Documentation.split_eq_ok_iff.mp divided
      rw [docstrings, Option.mem_toList] at member
      split at member
      · rw [mem_nonempty member, isDescription]
        exact ⟨_, rfl⟩
      · cases member

namespace Class

theorem isDescription_of_brings {cls : Dump.Class} {profile : Profile} {member : Dump.Member}
    {found : Resolved Entry} (brings : Brings cls profile member (some found)) :
    ∀ text ∈ found.value.docstrings, IsDescription text := by
  cases brings with
  | constructor outcome accepted => exact Callable.isDescription_of_build accepted
  | method outcome accepted => exact Callable.isDescription_of_build accepted
  | magicMethod outcome accepted => exact Callable.isDescription_of_build accepted
  | accessor outcome accepted => exact nofun
  | placeholder outcome => exact nofun

private theorem mem_docstrings_ofEntries {name : String} {cls : Dump.Class}
    {entries : List Entry} {text : String}
    (member : text ∈ (ofEntries name cls entries).docstrings) :
    docstring cls = some text ∨ text ∈ entries.flatMap Entry.docstrings := by
  simp only [docstrings, ofEntries, List.mem_append, List.mem_flatMap, Option.mem_toList] at member
  rcases member with ofClass | ⟨callable, isHead | isMethod | isMagic, inside⟩
  · left
    exact ofClass
  · right
    refine mem_flatMap_of_selected ?_ (List.mem_of_mem_head? isHead) inside
    rintro (_ | _ | _ | _) found isFound <;> cases isFound
    rfl
  · right
    refine mem_flatMap_of_selected ?_ isMethod inside
    rintro (_ | _ | _ | _) found isFound <;> cases isFound
    rfl
  · right
    refine mem_flatMap_of_selected ?_ isMagic inside
    rintro (_ | _ | _ | _) found isFound <;> cases isFound
    rfl

theorem isDescription_of_assemble {name : String} {cls : Dump.Class} {profile : Profile}
    {assembled : Resolved Class} (accepted : assemble name cls profile = .ok assembled) :
    ∀ text ∈ assembled.value.docstrings, IsDescription text := by
  obtain ⟨built, steps, rfl⟩ := assemble_eq_ok_iff.mp accepted
  intro text member
  rcases mem_docstrings_ofEntries member with ofClass | ofEntries
  · obtain ⟨raw, -, described⟩ := Option.bind_eq_some_iff.mp ofClass
    rw [mem_nonempty described]
    exact ⟨_, rfl⟩
  · obtain ⟨entry, inEntries, inside⟩ := List.mem_flatMap.mp ofEntries
    have described : ∀ entry ∈ (Resolved.all (built.filterMap id)).value,
        ∀ text ∈ entry.docstrings, IsDescription text :=
      forall_mem_entries steps fun _ _ => isDescription_of_brings
    exact described entry inEntries text inside

end Class

namespace Module

theorem isDescription_of_brings {profile : Profile} {member : Dump.Member}
    {found : Resolved RootEntry} (brings : Brings profile member (some found)) :
    ∀ text ∈ found.value.docstrings, IsDescription text := by
  cases brings with
  | classDecl outcome accepted => exact Class.isDescription_of_assemble accepted
  | function outcome accepted => exact Callable.isDescription_of_build accepted
  | warning outcome => exact nofun

/-- Every docstring in a module is the description in some documentation. -/
theorem isDescription_of_assemble {module : Dump.Module} {profile : Profile}
    {assembled : Assembled} (accepted : assemble module profile = .ok assembled) :
    ∀ text ∈ assembled.module.docstrings, IsDescription text := by
  obtain ⟨built, steps, rfl⟩ := assemble_eq_ok_iff.mp accepted
  intro text member
  have ofEntries : text ∈ (Resolved.all (built.filterMap id)).value.flatMap RootEntry.docstrings := by
    simp only [docstrings, List.mem_append, List.mem_flatMap] at member
    rcases member with ⟨cls, isClass, inside⟩ | ⟨callable, isFunction, inside⟩
    · refine mem_flatMap_of_selected ?_ isClass inside
      rintro (_ | _ | _) found isFound <;> cases isFound
      rfl
    · refine mem_flatMap_of_selected ?_ isFunction inside
      rintro (_ | _ | _) found isFound <;> cases isFound
      rfl
  obtain ⟨entry, inEntries, inside⟩ := List.mem_flatMap.mp ofEntries
  have described : ∀ entry ∈ (Resolved.all (built.filterMap id)).value,
      ∀ text ∈ entry.docstrings, IsDescription text :=
    forall_mem_entries steps fun _ _ => isDescription_of_brings
  exact described entry inEntries text inside

/-- A description is its own description and has no directive about types. So no row of a
docstring in a module is read as one. -/
theorem no_directive_in_docstrings :
    (∀ doc, description (description doc) = description doc ∧
      Documentation.paramTypes (description doc) = [] ∧
      Documentation.rtype (description doc) = .ok none) ∧
    ∀ {module : Dump.Module} {profile : Profile} {assembled : Assembled},
      assemble module profile = .ok assembled →
        ∀ text ∈ assembled.module.docstrings, ∀ row ∈ rows text.toList,
          Directive.typeOfRow? row = none ∧ Directive.returnOfRow? .rtype row = none := by
  constructor
  · intro doc
    exact ⟨Documentation.description_description doc, Documentation.paramTypes_description doc,
      Documentation.rtype_description doc⟩
  · intro module profile assembled accepted text member row inText
    obtain ⟨raw, rfl⟩ := isDescription_of_assemble accepted text member
    exact Documentation.isMatched_eq_false_iff.mp
      (Documentation.isMatched_of_mem_description inText)

/-- A class and a method whose types are documented among other text. -/
def orchard : Dump.Module where
  name := "orchard"
  doc := none
  members :=
    [⟨"Tree", .classObject
        ⟨"Tree", "orchard", "", some "A tree.\n:type height: int\n\u3000:type width: int\nIt grows.",
          [], [⟨"prune", .routine
            ⟨true, some "Prune it.\n\n  :rtype: bool\r\n:return: whether it helped", none⟩⟩],
          false, none⟩⟩]
  objectMembers := []

theorem no_directive_in_docstrings_orchard :
    ∃ assembled, assemble orchard .standard = .ok assembled ∧
      assembled.module.docstrings =
        ["A tree.\nIt grows.", "Prune it.\n\n:return: whether it helped"] ∧
      ∀ text ∈ assembled.module.docstrings, ∀ row ∈ rows text.toList,
        Directive.typeOfRow? row = none ∧ Directive.returnOfRow? .rtype row = none := by
  have described : (assemble orchard .standard).map (·.module.docstrings) =
      .ok ["A tree.\nIt grows.", "Prune it.\n\n:return: whether it helped"] := by decide +kernel
  obtain ⟨assembled, accepted, texts⟩ := Outcome.map_eq_ok_iff.mp described
  exact ⟨assembled, accepted, texts, no_directive_in_docstrings.2 accepted⟩

end Module

end TypeStub.Decl
