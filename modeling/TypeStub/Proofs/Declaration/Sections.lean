import TypeStub.Proofs.Declaration.Assembly

/-!
Contract: which members of a class stand in which section of its declaration.

Owns:
- `Class.Sections`, every section as the members that belong to it, in the order of the
  members and each as often as it is listed;
- that whatever is assembled has these sections.
-/

namespace TypeStub

/-- The value is a function or method. -/
def Dump.Object.isRoutine : Dump.Object → Bool
  | .routine _ => true
  | _ => false

theorem Dump.Object.isRoutine_iff {value : Dump.Object} :
    value.isRoutine = true ↔ ∃ routine, value = .routine routine := by
  cases value <;> simp [isRoutine]

namespace Decl

/-- The callable is what is built from the routine that the member is. -/
structure DeclaresRoutine (kind : CallableKind) (member : Dump.Member) (callable : Callable) :
    Prop where
  name : callable.name = member.name
  built : ∃ routine, member.value = .routine routine ∧
    ∃ namespaces, buildRoutine member.name routine kind = .ok ⟨callable, namespaces⟩

/-- A data descriptor is declared with its type, a class or plain value by its name only. -/
inductive DeclaresAttribute (member : Dump.Member) : Attribute → Prop
  | descriptor {doc : Option String} {accessor : Accessor} {namespaces : NameSet}
      (isDescriptor : member.value = .descriptor doc) (name : accessor.name = member.name)
      (built : Accessor.build member.name doc = .ok ⟨accessor, namespaces⟩) :
      DeclaresAttribute member (.accessor accessor)
  | classObject {inner : Dump.Class} (isClass : member.value = .classObject inner) :
      DeclaresAttribute member (.placeholder member.name)
  | value {written : Option String} (isValue : member.value = .value written) :
      DeclaresAttribute member (.placeholder member.name)

namespace Class

open Dump (isDunder)

/-- The class declares the members listed in `ordered`, each in its section. -/
structure Sections (cls : Dump.Class) (profile : Profile) (ordered : List Dump.Member)
    (declared : Class) : Prop where
  methods : List.Forall₂ (DeclaresRoutine .method)
    (ordered.filter fun member => cls.Survives profile member ∧
      member.value.isRoutine = true ∧ isDunder member.name = false) declared.methods
  magicMethods : List.Forall₂ (DeclaresRoutine .magicMethod)
    (ordered.filter fun member => cls.Survives profile member ∧
      member.value.isRoutine = true ∧ isDunder member.name = true) declared.magicMethods
  attributes : List.Forall₂ DeclaresAttribute
    (ordered.filter fun member => cls.Survives profile member ∧
      member.value.isRoutine = false ∧ isDunder member.name = false) declared.attributes
  constructor_isSome : declared.constructor.isSome = true ↔
    cls.signature.isSome = true ∧ ∃ member ∈ cls.members,
      ¬ cls.IsInherited profile member ∧ (member.name = "__init__" ∨ member.name = "__new__")
  constructor_built : ∀ callable ∈ declared.constructor, callable.name = "__init__" ∧
    ∃ signature ∈ cls.signature, ∃ namespaces,
      Callable.build "__init__" signature cls.doc .constructor = .ok ⟨callable, namespaces⟩
  bases : declared.bases =
    (cls.bases.filter fun base => !base.isObject).map Dump.Class.reference

section Assembled

variable {cls : Dump.Class} {profile : Profile} {members : List Dump.Member}
  {built : List (Option (Resolved Entry))}

private theorem name_of_buildRoutine {name : String} {routine : Dump.Routine}
    {kind : CallableKind} {found : Resolved Callable}
    (accepted : buildRoutine name routine kind = .ok found) : found.value.name = name :=
  (Callable.exists_types_of_build accepted).2.1

/-- A section of routines, by the outcome that puts a member into it and by what is selected
for it. -/
private theorem forall₂_routines {kind : CallableKind} {dunder : Bool}
    {outcome : Dump.Routine → ClassMember} {select : Entry → Option Callable}
    (wrap : Callable → Entry)
    (classified : ∀ {member routine}, cls.classify profile member = outcome routine ↔
      cls.Survives profile member ∧ member.value = .routine routine ∧
        isDunder member.name = dunder)
    (enters : ∀ {member routine}, cls.classify profile member = outcome routine →
      entry cls profile member =
        (buildRoutine member.name routine kind).map fun built => some (built.map wrap))
    (selects : ∀ callable, select (wrap callable) = some callable)
    (selectsOnly : ∀ {member found callable}, Brings cls profile member found →
      (found.bind fun entry => select entry.value) = some callable →
        ∃ routine, cls.classify profile member = outcome routine)
    (steps : List.Forall₂ (Brings cls profile) members built) :
    List.Forall₂ (DeclaresRoutine kind)
      (members.filter fun member => cls.Survives profile member ∧
        member.value.isRoutine = true ∧ isDunder member.name = dunder)
      ((Resolved.all (built.filterMap id)).value.filterMap select) := by
  rw [filterMap_values]
  apply Outcome.forall₂_selected steps
  · intro member _ found brings isChosen
    obtain ⟨survives, isRoutine, named⟩ := of_decide_eq_true isChosen
    obtain ⟨routine, isValue⟩ := Dump.Object.isRoutine_iff.mp isRoutine
    rw [← entry_eq_ok_iff, enters (classified.mpr ⟨survives, isValue, named⟩)] at brings
    obtain ⟨callable, accepted, rfl⟩ := Outcome.map_eq_ok_iff.mp brings
    exact ⟨callable.value, selects callable.value, name_of_buildRoutine accepted, routine,
      isValue, callable.namespaces, accepted⟩
  · intro member _ found brings notChosen
    rw [Option.eq_none_iff_forall_ne_some]
    intro callable selected
    obtain ⟨routine, isOutcome⟩ := selectsOnly brings selected
    obtain ⟨survives, isValue, named⟩ := classified.mp isOutcome
    have isRoutine := Dump.Object.isRoutine_iff.mpr ⟨routine, isValue⟩
    exact of_decide_eq_false notChosen ⟨survives, isRoutine, named⟩

private theorem forall₂_methods (steps : List.Forall₂ (Brings cls profile) members built) :
    List.Forall₂ (DeclaresRoutine .method)
      (members.filter fun member => cls.Survives profile member ∧
        member.value.isRoutine = true ∧ isDunder member.name = false)
      ((Resolved.all (built.filterMap id)).value.filterMap Entry.method?) := by
  refine forall₂_routines .method Dump.Class.classify_eq_method_iff ?_ (fun _ => rfl) ?_ steps
  · intro member routine outcome
    rw [entry, outcome]
  · intro member found callable brings selected
    cases brings with
    | method outcome => exact ⟨_, outcome⟩
    | _ => cases selected

private theorem forall₂_magicMethods (steps : List.Forall₂ (Brings cls profile) members built) :
    List.Forall₂ (DeclaresRoutine .magicMethod)
      (members.filter fun member => cls.Survives profile member ∧
        member.value.isRoutine = true ∧ isDunder member.name = true)
      ((Resolved.all (built.filterMap id)).value.filterMap Entry.magicMethod?) := by
  refine forall₂_routines .magicMethod Dump.Class.classify_eq_magicMethod_iff ?_ (fun _ => rfl) ?_
    steps
  · intro member routine outcome
    rw [entry, outcome]
  · intro member found callable brings selected
    cases brings with
    | magicMethod outcome => exact ⟨_, outcome⟩
    | _ => cases selected

private theorem brings_attribute {member : Dump.Member} {found : Option (Resolved Entry)}
    (brings : Brings cls profile member found) (survives : cls.Survives profile member)
    (notRoutine : member.value.isRoutine = false) (plain : isDunder member.name = false) :
    ∃ declared, (found.bind fun entry => entry.value.attribute?) = some declared ∧
      DeclaresAttribute member declared := by
  cases isValue : member.value with
  | routine routine =>
      rw [isValue] at notRoutine
      cases notRoutine
  | descriptor doc =>
      have outcome := Dump.Class.classify_eq_accessor_iff.mpr ⟨survives, isValue, plain⟩
      rw [← entry_eq_ok_iff, entry, outcome] at brings
      obtain ⟨accessor, accepted, rfl⟩ := Outcome.map_eq_ok_iff.mp brings
      exact ⟨.accessor accessor.value, rfl,
        .descriptor isValue (Accessor.name_of_build accepted) accepted⟩
  | classObject inner =>
      have outcome := Dump.Class.classify_eq_placeholder_iff.mpr
        ⟨survives, .inl ⟨inner, isValue⟩, plain⟩
      rw [← entry_eq_ok_iff, entry, outcome] at brings
      cases brings
      exact ⟨.placeholder member.name, rfl, .classObject isValue⟩
  | value written =>
      have outcome := Dump.Class.classify_eq_placeholder_iff.mpr
        ⟨survives, .inr ⟨written, isValue⟩, plain⟩
      rw [← entry_eq_ok_iff, entry, outcome] at brings
      cases brings
      exact ⟨.placeholder member.name, rfl, .value isValue⟩

private theorem forall₂_attributes (steps : List.Forall₂ (Brings cls profile) members built) :
    List.Forall₂ DeclaresAttribute
      (members.filter fun member => cls.Survives profile member ∧
        member.value.isRoutine = false ∧ isDunder member.name = false)
      ((Resolved.all (built.filterMap id)).value.filterMap Entry.attribute?) := by
  rw [filterMap_values]
  apply Outcome.forall₂_selected steps
  · intro member _ found brings isChosen
    obtain ⟨survives, notRoutine, plain⟩ := of_decide_eq_true isChosen
    exact brings_attribute brings survives notRoutine plain
  · intro member _ found brings notChosen
    have notSection := of_decide_eq_false notChosen
    cases brings with
    | accessor outcome accepted =>
        obtain ⟨survives, isValue, plain⟩ := Dump.Class.classify_eq_accessor_iff.mp outcome
        exact absurd ⟨survives, by rw [isValue]; rfl, plain⟩ notSection
    | placeholder outcome =>
        obtain ⟨survives, isValue, plain⟩ := Dump.Class.classify_eq_placeholder_iff.mp outcome
        have notRoutine : member.value.isRoutine = false := by
          rcases isValue with ⟨inner, isClass⟩ | ⟨written, isPlain⟩
          · rw [isClass]
            rfl
          · rw [isPlain]
            rfl
        exact absurd ⟨survives, notRoutine, plain⟩ notSection
    | _ => rfl

private theorem mem_constructors (steps : List.Forall₂ (Brings cls profile) members built)
    {callable : Callable} :
    callable ∈ (Resolved.all (built.filterMap id)).value.filterMap Entry.constructor? ↔
      ∃ member ∈ members, ∃ signature namespaces,
        cls.classify profile member = .constructor signature ∧
          Callable.build "__init__" signature cls.doc .constructor =
            .ok ⟨callable, namespaces⟩ := by
  rw [filterMap_values, List.mem_filterMap]
  constructor
  · rintro ⟨found, inBuilt, selected⟩
    obtain ⟨member, inMembers, brings⟩ := Outcome.exists_left_of_mem steps inBuilt
    cases brings with
    | @constructor signature resolved outcome accepted =>
        cases selected
        exact ⟨member, inMembers, signature, resolved.namespaces, outcome, accepted⟩
    | _ => cases selected
  · rintro ⟨member, inMembers, signature, namespaces, outcome, accepted⟩
    obtain ⟨found, inBuilt, brings⟩ := Outcome.exists_right_of_mem steps inMembers
    rw [← entry_eq_ok_iff, entry, outcome] at brings
    obtain ⟨resolved, isBuilt, rfl⟩ := Outcome.map_eq_ok_iff.mp brings
    rw [isBuilt] at accepted
    cases accepted
    exact ⟨_, inBuilt, rfl⟩

/-- Whichever member stands for the constructor, there is one if there is any. -/
private theorem constructor_isSome_iff
    (steps : List.Forall₂ (Brings cls profile) members built) :
    ((Resolved.all (built.filterMap id)).value.filterMap Entry.constructor?).head?.isSome = true ↔
      cls.signature.isSome = true ∧ ∃ member ∈ members,
        ¬ cls.IsInherited profile member ∧
          (member.name = "__init__" ∨ member.name = "__new__") := by
  rw [Option.isSome_iff_exists, Option.isSome_iff_exists]
  constructor
  · rintro ⟨callable, isHead⟩
    obtain ⟨member, inMembers, signature, namespaces, outcome, -⟩ :=
      (mem_constructors steps).mp (List.mem_of_mem_head? isHead)
    obtain ⟨own, named, known⟩ := Dump.Class.classify_eq_constructor_iff.mp outcome
    exact ⟨⟨signature, known⟩, member, inMembers, own, named⟩
  · rintro ⟨⟨signature, known⟩, member, inMembers, own, named⟩
    have outcome := Dump.Class.classify_eq_constructor_iff.mpr ⟨own, named, known⟩
    obtain ⟨found, inBuilt, brings⟩ := Outcome.exists_right_of_mem steps inMembers
    rw [← entry_eq_ok_iff, entry, outcome] at brings
    obtain ⟨resolved, accepted, -⟩ := Outcome.map_eq_ok_iff.mp brings
    have listed := (mem_constructors steps).mpr
      ⟨member, inMembers, signature, resolved.namespaces, outcome, accepted⟩
    exact ⟨_, List.head?_eq_some_head (List.ne_nil_of_mem listed)⟩

end Assembled

/-- A class that is assembled declares each of its members in the section where it belongs,
in the order of names, and none that it has from elsewhere. -/
theorem sections_of_assemble {name : String} {cls : Dump.Class} {profile : Profile}
    {assembled : Resolved Class} (accepted : assemble name cls profile = .ok assembled) :
    assembled.value.name = name ∧
      ∃ ordered, Dump.StablyOrdered cls.members ordered ∧
        Sections cls profile ordered assembled.value := by
  obtain ⟨built, steps, rfl⟩ := assemble_eq_ok_iff.mp accepted
  have isOrdered := Dump.stablyOrdered_sortedMembers cls.members
  refine ⟨rfl, Dump.sortedMembers cls.members, isOrdered, ?_⟩
  constructor
  case methods => exact forall₂_methods steps
  case magicMethods => exact forall₂_magicMethods steps
  case attributes => exact forall₂_attributes steps
  case constructor_isSome =>
    have present := constructor_isSome_iff steps
    simp only [isOrdered.permuted.mem_iff] at present
    exact present
  case constructor_built =>
    intro callable isHead
    obtain ⟨member, -, signature, namespaces, outcome, isBuilt⟩ :=
      (mem_constructors steps).mp (List.mem_of_mem_head? isHead)
    obtain ⟨-, -, known⟩ := Dump.Class.classify_eq_constructor_iff.mp outcome
    exact ⟨(Callable.exists_types_of_build isBuilt).2.1, signature, known, namespaces, isBuilt⟩
  case bases => rfl

/-- A class in which each rule decides about some member: `area` is inherited, `__str__` is the
universal base type's own, `__doc__` is excluded by name, and both names of the constructor
occur. -/
def polygon : Dump.Class where
  name := "Polygon"
  module := "shapes"
  qualname := ""
  doc := some ":type sides: int"
  bases :=
    [⟨"Shape", "shapes", "", none, [], [⟨"area", .routine ⟨true, none, none⟩⟩], false, none⟩,
      ⟨"object", "builtins", "", none, [], [], false, none⟩]
  members :=
    [⟨"sides", .descriptor (some ":rtype: int")⟩, ⟨"scale", .routine ⟨true, none, none⟩⟩,
      ⟨"area", .routine ⟨true, none, none⟩⟩, ⟨"__str__", .routine ⟨true, none, none⟩⟩,
      ⟨"__new__", .routine ⟨true, none, none⟩⟩, ⟨"__len__", .routine ⟨true, none, none⟩⟩,
      ⟨"__init__", .routine ⟨true, none, none⟩⟩, ⟨"__doc__", .value none⟩,
      ⟨"Edge", .classObject ⟨"Edge", "shapes", "Polygon.Edge", none, [], [], false, none⟩⟩]
  isEnum := false
  signature := some [.plain "sides" .positionalOrKeyword]

/-- The standard profile on a host whose universal base type has a member. -/
def printable : Profile :=
  Profile.standard.withObjectMembers [⟨"__str__", .routine ⟨true, none, none⟩⟩]

theorem sections_of_assemble_polygon :
    ∃ assembled, assemble "Polygon" polygon printable = .ok assembled ∧
      assembled.value.methods.map (·.name) = ["scale"] ∧
      ∃ ordered, Dump.StablyOrdered polygon.members ordered ∧
        Sections polygon printable ordered assembled.value := by
  have sorted : Dump.sortedMembers polygon.members = polygon.members.reverse := by
    simp [Dump.sortedMembers, polygon, List.mergeSort]
  have methods : (assemble "Polygon" polygon printable).map
      (fun assembled => assembled.value.methods.map (·.name)) = .ok ["scale"] := by
    rw [assemble, sorted]
    decide +kernel
  obtain ⟨assembled, accepted, named⟩ := Outcome.map_eq_ok_iff.mp methods
  obtain ⟨-, ordered, isOrdered, sections⟩ := sections_of_assemble accepted
  exact ⟨assembled, accepted, named, ordered, isOrdered, sections⟩

end Class

end Decl

end TypeStub
