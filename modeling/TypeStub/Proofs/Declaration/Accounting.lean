import TypeStub.Proofs.Declaration.Sections

/-!
Contract: every member of a module is accounted for.

Owns:
- `Module.Accounts`, a module that is assembled as its members: classes, functions, warnings,
  and reserved names that are passed over;
- `Module.Refuses` and `Module.FirstRefusal`, the member that decides the fault of a module;
- `Module.accounts_of_assemble`, that an assembly is one or the other.

Warnings and faults do not mix: a member that only deserves a warning never makes a module fail,
and what makes it fail is a fault of a signature or of documentation.
-/

namespace TypeStub

/-! ## Faults of declarations -/

/-- A fault that a signature or a text of documentation has. -/
inductive Fault.OfDeclaration : Fault → Prop
  | invalidSignature (callable : String) (defect : SignatureDefect) :
      OfDeclaration (.invalidSignature callable defect)
  | ambiguousReturn (ambiguity : AmbiguousReturn) : OfDeclaration (.ambiguousReturn ambiguity)
  | unknownParameter (callable parameter : String) :
      OfDeclaration (.unknownParameter callable parameter)
  | malformedType (malformed : Malformed) : OfDeclaration (.malformedType malformed)

theorem Fault.OfDeclaration.isFatal {fault : Fault} (ofDeclaration : fault.OfDeclaration) :
    fault.isFatal = true := by
  cases ofDeclaration <;> rfl

namespace Decl

variable {fault : Fault}

private theorem ofDeclaration_of_resolveDirective {callable : String}
    {parameters : List TypeStub.Parameter} {directive : TypeDirective}
    (refused : resolveDirective callable parameters directive = .error fault) :
    fault.OfDeclaration := by
  unfold resolveDirective at refused
  split at refused
  · split at refused
    · cases refused
      exact .malformedType _
    · cases refused
  · cases refused
    exact .unknownParameter _ _

private theorem ofDeclaration_of_resolveReturn {expr : Option String}
    (refused : resolveReturn expr = .error fault) : fault.OfDeclaration := by
  unfold resolveReturn at refused
  split at refused
  · cases refused
  · split at refused
    · cases refused
      exact .malformedType _
    · cases refused

private theorem ofDeclaration_of_ofParts {name : String} {kind : CallableKind}
    {real : List TypeStub.Parameter} {parts : Documentation.Parts}
    (refused : Callable.ofParts name kind real parts = .error fault) : fault.OfDeclaration := by
  unfold Callable.ofParts at refused
  split at refused
  · rename_i other failed
    cases refused
    obtain ⟨-, directive, -, -, -, ofDirective⟩ := Outcome.mapM_eq_error_iff.mp failed
    exact ofDeclaration_of_resolveDirective ofDirective
  · split at refused
    · rename_i other failed
      cases refused
      exact ofDeclaration_of_resolveReturn failed
    · cases refused

theorem Callable.ofDeclaration_of_build {name : String} {parameters : List TypeStub.Parameter}
    {doc : Option String} {kind : CallableKind}
    (refused : build name parameters doc kind = .error fault) : fault.OfDeclaration := by
  simp only [build] at refused
  split at refused
  · cases refused
    exact .invalidSignature _ _
  split at refused
  · cases refused
  split at refused
  · cases refused
    exact .ambiguousReturn _
  · exact ofDeclaration_of_ofParts refused

theorem Accessor.ofDeclaration_of_build {name : String} {doc : Option String}
    (refused : build name doc = .error fault) : fault.OfDeclaration := by
  simp only [build] at refused
  split at refused
  · cases refused
  split at refused
  · cases refused
    exact .ambiguousReturn _
  split at refused
  · rename_i other failed
    cases refused
    exact ofDeclaration_of_resolveReturn failed
  split at refused
  · cases refused
    exact .ambiguousReturn _
  · cases refused

private theorem Class.ofDeclaration_of_entry {cls : Dump.Class} {profile : Profile}
    {member : Dump.Member} (refused : entry cls profile member = .error fault) :
    fault.OfDeclaration := by
  unfold entry at refused
  split at refused
  · exact Callable.ofDeclaration_of_build (Outcome.map_eq_error_iff.mp refused)
  · exact Callable.ofDeclaration_of_build (Outcome.map_eq_error_iff.mp refused)
  · exact Callable.ofDeclaration_of_build (Outcome.map_eq_error_iff.mp refused)
  · exact Accessor.ofDeclaration_of_build (Outcome.map_eq_error_iff.mp refused)
  · cases refused
  · cases refused

theorem Class.ofDeclaration_of_assemble {name : String} {cls : Dump.Class} {profile : Profile}
    (refused : assemble name cls profile = .error fault) : fault.OfDeclaration := by
  unfold assemble at refused
  split at refused
  · rename_i other failed
    cases refused
    obtain ⟨-, member, -, -, -, ofMember⟩ := Outcome.mapM_eq_error_iff.mp failed
    exact ofDeclaration_of_entry ofMember
  · cases refused

end Decl

/-! ## Members -/

namespace Dump.Object

/-- The value is a class. -/
def isClass : Object → Bool
  | .classObject _ => true
  | _ => false

/-- The value is a routine that is implemented natively. -/
def isNative : Object → Bool
  | .routine known => known.builtin
  | _ => false

theorem isClass_iff {value : Object} : value.isClass = true ↔ ∃ cls, value = .classObject cls := by
  cases value <;> simp [isClass]

theorem isNative_iff {value : Object} :
    value.isNative = true ↔ ∃ routine, value = .routine routine ∧ routine.builtin = true := by
  cases value <;> simp [isNative]

end Dump.Object

namespace Dump.Member

variable {member : Dump.Member}

theorem classifyRoot_eq_unsupported_iff :
    member.classifyRoot = .unsupported ↔
      isDunder member.name = false ∧ member.value.isClass = false ∧
        member.value.isNative = false := by
  unfold classifyRoot
  by_cases dunder : isDunder member.name = true
  · simp [dunder]
  · have plain : isDunder member.name = false := by simpa using dunder
    cases member.value with
    | routine routine =>
        by_cases native : routine.builtin = true <;>
          simp [plain, native, Object.isClass, Object.isNative]
    | _ => simp [plain, Object.isClass, Object.isNative]

end Dump.Member

/-- The profile with more members of the universal base type, where a name that it has keeps
its own. -/
structure Profile.ExtendedBy (profile : Profile) (members : List Dump.Member)
    (extended : Profile) : Prop where
  version : extended.version = profile.version
  blacklist : extended.blacklist = profile.blacklist
  enumSynthetic : extended.enumSynthetic = profile.enumSynthetic
  objectMember? : ∀ name, extended.objectMember? name =
    (profile.objectMember? name).or
      ((members.find? fun member => member.name = name).map (·.value))

theorem Profile.extendedBy_withObjectMembers (profile : Profile) (members : List Dump.Member) :
    profile.ExtendedBy members (profile.withObjectMembers members) where
  version := rfl
  blacklist := rfl
  enumSynthetic := rfl
  objectMember? name := by
    simp [Profile.objectMember?, withObjectMembers, List.find?_append, Option.map_or]

/-! ## Modules -/

namespace Decl.Module

open Dump (isDunder)

/-- The class is what is assembled from the class that the member is. -/
def DeclaresAssembled (profile : Profile) (member : Dump.Member) (cls : Class) : Prop :=
  ∃ original, member.value = .classObject original ∧
    ∃ namespaces, Class.assemble member.name original profile = .ok ⟨cls, namespaces⟩

/-- The members listed in `ordered` are what the module declares, what it warns about, and
reserved names. -/
structure Accounts (profile : Profile) (ordered : List Dump.Member) (assembled : Assembled) :
    Prop where
  classes : List.Forall₂ (DeclaresAssembled profile)
    (ordered.filter fun member => isDunder member.name = false ∧ member.value.isClass = true)
    assembled.module.classes
  functions : List.Forall₂ (DeclaresRoutine .function)
    (ordered.filter fun member => isDunder member.name = false ∧ member.value.isNative = true)
    assembled.module.functions
  warnings : assembled.warnings =
    (ordered.filter fun member => isDunder member.name = false ∧
      member.value.isClass = false ∧ member.value.isNative = false).map
        fun member => .unsupportedRoot member.name
  total : ordered.length =
    assembled.module.classes.length + assembled.module.functions.length +
      assembled.warnings.length + ordered.countP fun member => isDunder member.name

/-- The member is a class or a native routine that cannot be declared. -/
inductive Refuses (profile : Profile) (member : Dump.Member) (fault : Fault) : Prop
  | classObject {cls : Dump.Class} (plain : isDunder member.name = false)
      (isClass : member.value = .classObject cls)
      (refused : Class.assemble member.name cls profile = .error fault)
  | function {routine : Dump.Routine} (plain : isDunder member.name = false)
      (isRoutine : member.value = .routine routine) (native : routine.builtin = true)
      (refused : buildRoutine member.name routine .function = .error fault)

/-- The fault is that of the first member that cannot be declared. -/
structure FirstRefusal (profile : Profile) (ordered : List Dump.Member) (fault : Fault) :
    Prop where
  first : ∃ before member after, ordered = before ++ member :: after ∧
    (∀ earlier ∈ before, ∀ other, ¬ Refuses profile earlier other) ∧
      Refuses profile member fault
  cause : fault.OfDeclaration
  fatal : fault.isFatal = true

theorem entry_eq_error_iff {profile : Profile} {member : Dump.Member} {fault : Fault} :
    entry profile member = .error fault ↔ Refuses profile member fault := by
  constructor
  · intro refused
    unfold entry at refused
    split at refused
    · rename_i cls outcome
      obtain ⟨plain, isClass⟩ := Dump.Member.classifyRoot_eq_classObject_iff.mp outcome
      exact .classObject plain isClass (Outcome.map_eq_error_iff.mp refused)
    · rename_i routine outcome
      obtain ⟨plain, isRoutine, native⟩ := Dump.Member.classifyRoot_eq_function_iff.mp outcome
      exact .function plain isRoutine native (Outcome.map_eq_error_iff.mp refused)
    · cases refused
    · cases refused
  · intro refuses
    cases refuses with
    | classObject plain isClass refused =>
        have outcome := Dump.Member.classifyRoot_eq_classObject_iff.mpr ⟨plain, isClass⟩
        simp only [entry, outcome, refused, Except.map]
    | function plain isRoutine native refused =>
        have outcome := Dump.Member.classifyRoot_eq_function_iff.mpr ⟨plain, isRoutine, native⟩
        simp only [entry, outcome, refused, Except.map]

theorem Refuses.ofDeclaration {profile : Profile} {member : Dump.Member} {fault : Fault}
    (refuses : Refuses profile member fault) : fault.OfDeclaration := by
  cases refuses with
  | classObject _ _ refused => exact Class.ofDeclaration_of_assemble refused
  | function _ _ _ refused => exact Callable.ofDeclaration_of_build refused

theorem firstRefusal_of_mapM {profile : Profile} {ordered : List Dump.Member} {fault : Fault}
    (failed : ordered.mapM (entry profile) = .error fault) :
    FirstRefusal profile ordered fault := by
  obtain ⟨before, member, after, divided, succeed, refused⟩ :=
    Outcome.mapM_eq_error_iff.mp failed
  have refuses := entry_eq_error_iff.mp refused
  have earlierSucceed : ∀ earlier ∈ before, ∀ other, ¬ Refuses profile earlier other := by
    intro earlier inBefore other alsoRefuses
    obtain ⟨found, accepted⟩ := succeed earlier inBefore
    rw [entry_eq_error_iff.mpr alsoRefuses] at accepted
    cases accepted
  exact ⟨⟨before, member, after, divided, earlierSucceed, refuses⟩, refuses.ofDeclaration,
    refuses.ofDeclaration.isFatal⟩

section Sections

variable {profile : Profile} {ordered : List Dump.Member}
  {built : List (Option (Resolved RootEntry))}

private theorem forall₂_classes (steps : List.Forall₂ (Brings profile) ordered built) :
    List.Forall₂ (DeclaresAssembled profile)
      (ordered.filter fun member => isDunder member.name = false ∧ member.value.isClass = true)
      ((Resolved.all (built.filterMap id)).value.filterMap RootEntry.class?) := by
  rw [filterMap_values]
  apply Outcome.forall₂_selected steps
  · intro member _ found brings isChosen
    obtain ⟨plain, isClass⟩ := of_decide_eq_true isChosen
    obtain ⟨cls, isValue⟩ := Dump.Object.isClass_iff.mp isClass
    have outcome := Dump.Member.classifyRoot_eq_classObject_iff.mpr ⟨plain, isValue⟩
    rw [← entry_eq_ok_iff, entry, outcome] at brings
    obtain ⟨declared, accepted, rfl⟩ := Outcome.map_eq_ok_iff.mp brings
    exact ⟨declared.value, rfl, cls, isValue, declared.namespaces, accepted⟩
  · intro member _ found brings notChosen
    cases brings with
    | classDecl outcome =>
        obtain ⟨plain, isValue⟩ := Dump.Member.classifyRoot_eq_classObject_iff.mp outcome
        have isClass := Dump.Object.isClass_iff.mpr ⟨_, isValue⟩
        exact absurd ⟨plain, isClass⟩ (of_decide_eq_false notChosen)
    | _ => rfl

private theorem forall₂_functions (steps : List.Forall₂ (Brings profile) ordered built) :
    List.Forall₂ (DeclaresRoutine .function)
      (ordered.filter fun member => isDunder member.name = false ∧ member.value.isNative = true)
      ((Resolved.all (built.filterMap id)).value.filterMap RootEntry.function?) := by
  rw [filterMap_values]
  apply Outcome.forall₂_selected steps
  · intro member _ found brings isChosen
    obtain ⟨plain, isNative⟩ := of_decide_eq_true isChosen
    obtain ⟨routine, isValue, native⟩ := Dump.Object.isNative_iff.mp isNative
    have outcome := Dump.Member.classifyRoot_eq_function_iff.mpr ⟨plain, isValue, native⟩
    rw [← entry_eq_ok_iff, entry, outcome] at brings
    obtain ⟨callable, accepted, rfl⟩ := Outcome.map_eq_ok_iff.mp brings
    have named : callable.value.name = member.name := (Callable.exists_types_of_build accepted).2.1
    exact ⟨callable.value, rfl, named, routine, isValue, callable.namespaces, accepted⟩
  · intro member _ found brings notChosen
    cases brings with
    | function outcome =>
        obtain ⟨plain, isValue, native⟩ := Dump.Member.classifyRoot_eq_function_iff.mp outcome
        have isNative := Dump.Object.isNative_iff.mpr ⟨_, isValue, native⟩
        exact absurd ⟨plain, isNative⟩ (of_decide_eq_false notChosen)
    | _ => rfl

private theorem warnings_eq (steps : List.Forall₂ (Brings profile) ordered built) :
    (Resolved.all (built.filterMap id)).value.filterMap RootEntry.warning? =
      (ordered.filter fun member => isDunder member.name = false ∧
        member.value.isClass = false ∧ member.value.isNative = false).map
          fun member => .unsupportedRoot member.name := by
  rw [filterMap_values, eq_comm, ← List.forall₂_eq_eq_eq, List.forall₂_map_left_iff]
  apply Outcome.forall₂_selected steps
  · intro member _ found brings isChosen
    have outcome := Dump.Member.classifyRoot_eq_unsupported_iff.mpr (of_decide_eq_true isChosen)
    rw [← entry_eq_ok_iff, entry, outcome] at brings
    cases brings
    exact ⟨_, rfl, rfl⟩
  · intro member _ found brings notChosen
    cases brings with
    | warning outcome =>
        have isChosen := Dump.Member.classifyRoot_eq_unsupported_iff.mp outcome
        exact absurd isChosen (of_decide_eq_false notChosen)
    | _ => rfl

/-- Every member is of one kind, so the kinds make up the number of members. -/
private theorem length_eq_kinds (members : List Dump.Member) :
    members.length =
      (members.filter fun member =>
        isDunder member.name = false ∧ member.value.isClass = true).length +
      (members.filter fun member =>
        isDunder member.name = false ∧ member.value.isNative = true).length +
      (members.filter fun member => isDunder member.name = false ∧
        member.value.isClass = false ∧ member.value.isNative = false).length +
      members.countP fun member => isDunder member.name := by
  induction members with
  | nil => rfl
  | cons member rest inductionHypothesis =>
      have exclusive : member.value.isClass = true → member.value.isNative = false := by
        cases member.value <;> simp [Dump.Object.isClass, Dump.Object.isNative]
      simp only [List.length_cons, List.filter_cons, List.countP_cons]
      cases dunder : isDunder member.name <;> cases isClass : member.value.isClass <;>
        cases isNative : member.value.isNative <;> simp_all <;> omega

theorem accounts_of_steps {assembled : Assembled}
    (steps : List.Forall₂ (Brings profile) ordered built)
    (classes : assembled.module.classes =
      (Resolved.all (built.filterMap id)).value.filterMap RootEntry.class?)
    (functions : assembled.module.functions =
      (Resolved.all (built.filterMap id)).value.filterMap RootEntry.function?)
    (warnings : assembled.warnings =
      (Resolved.all (built.filterMap id)).value.filterMap RootEntry.warning?) :
    Accounts profile ordered assembled := by
  have ofClasses := classes ▸ forall₂_classes steps
  have ofFunctions := functions ▸ forall₂_functions steps
  have ofWarnings := warnings.trans (warnings_eq steps)
  refine ⟨ofClasses, ofFunctions, ofWarnings, ?_⟩
  rw [← ofClasses.length_eq, ← ofFunctions.length_eq, ofWarnings, List.length_map]
  exact length_eq_kinds ordered

end Sections

/-- A module is assembled from all of its members, or the first of them that cannot be declared
decides the fault. Members are taken by name, and the universal base type is that of the profile
with what the dump adds to it. -/
theorem accounts_of_assemble (dump : Dump.Module) (profile : Profile) :
    ∃ ordered extended, Dump.StablyOrdered dump.members ordered ∧
      profile.ExtendedBy dump.objectMembers extended ∧
      match assemble dump profile with
      | .ok assembled => Accounts extended ordered assembled
      | .error fault => FirstRefusal extended ordered fault := by
  refine ⟨Dump.sortedMembers dump.members, extendedProfile dump profile,
    Dump.stablyOrdered_sortedMembers dump.members,
    profile.extendedBy_withObjectMembers dump.objectMembers, ?_⟩
  cases outcome : assemble dump profile with
  | ok assembled =>
      obtain ⟨built, steps, rfl⟩ := assemble_eq_ok_iff.mp outcome
      exact accounts_of_steps steps rfl rfl rfl
  | error fault =>
      rw [assemble] at outcome
      split at outcome
      · rename_i other failed
        cases outcome
        exact firstRefusal_of_mapM failed
      · cases outcome

end Decl.Module

end TypeStub
