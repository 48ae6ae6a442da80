import TypeStub.Declaration.Callable
import TypeStub.Membership
import TypeStub.Notice

/-!
Contract: the declarations of classes and modules.

Owns:
- `Class.assemble`, the declaration of a class from its members;
- `Module.assemble`, the declaration of a module with a warning for each member left out;
- the notices of either, up to the member that makes it fail.

Members are taken by name, and the first that fails decides the fault.
-/

namespace TypeStub.Decl

/-- The items up to the first on which `build` fails, that one included. -/
def reached {α β : Type} (build : α → Except Fault β) : List α → List α
  | [] => []
  | item :: rest =>
      match build item with
      | .error _ => [item]
      | .ok _ => item :: reached build rest

/-- The declaration of a routine, which takes any arguments if its signature is not
known. -/
def buildRoutine (name : String) (routine : Dump.Routine) (kind : CallableKind) :
    Except Fault (Resolved Callable) :=
  Callable.build name (routine.signature.getD kind.genericParameters) routine.doc kind

/-- The notice about a routine whose signature is not known. -/
def routineNotices (name : String) (routine : Dump.Routine) : List Notice :=
  if routine.signature.isNone then [.noSignature name] else []

/-! ## Classes -/

/-- What a member adds to the declaration of its class. -/
inductive Entry where
  | constructor (callable : Callable)
  | method (callable : Callable)
  | magicMethod (callable : Callable)
  | attribute (declared : Attribute)
deriving DecidableEq, Repr

namespace Entry

def constructor? : Entry → Option Callable
  | .constructor callable => some callable
  | _ => none

def method? : Entry → Option Callable
  | .method callable => some callable
  | _ => none

def magicMethod? : Entry → Option Callable
  | .magicMethod callable => some callable
  | _ => none

def attribute? : Entry → Option Attribute
  | .attribute declared => some declared
  | _ => none

end Entry

namespace Class

/-- What a member adds to the declaration of the class, if anything. -/
def entry (cls : Dump.Class) (profile : Profile) (member : Dump.Member) :
    Except Fault (Option (Resolved Entry)) :=
  match cls.classify profile member with
  | .constructor signature =>
      (Callable.build "__init__" signature cls.doc .constructor).map
        fun built => some (built.map .constructor)
  | .method routine =>
      (buildRoutine member.name routine .method).map fun built => some (built.map .method)
  | .magicMethod routine =>
      (buildRoutine member.name routine .magicMethod).map
        fun built => some (built.map .magicMethod)
  | .accessor doc =>
      (Accessor.build member.name doc).map
        fun built => some (built.map fun accessor => .attribute (.accessor accessor))
  | .placeholder => .ok (some (.bare (.attribute (.placeholder member.name))))
  | .skipped _ => .ok none

def memberNotices (cls : Dump.Class) (profile : Profile) (member : Dump.Member) :
    List Notice :=
  match cls.classify profile member with
  | .method routine => routineNotices member.name routine
  | .magicMethod routine => routineNotices member.name routine
  | _ => []

def namedBases (cls : Dump.Class) : List Dump.Class :=
  cls.bases.filter fun base => !base.isObject

def docstring (cls : Dump.Class) : Option String :=
  cls.doc.bind fun raw => nonempty (Documentation.description (Documentation.dedent raw))

/-- The class that entries make up. Of several constructors the first counts; all of them
have the same declaration. -/
def ofEntries (name : String) (cls : Dump.Class) (entries : List Entry) : Class :=
  ⟨name, (namedBases cls).map Dump.Class.reference,
    (entries.filterMap Entry.constructor?).head?, entries.filterMap Entry.attribute?,
    entries.filterMap Entry.method?, entries.filterMap Entry.magicMethod?, docstring cls⟩

/-- The declaration of a class under the given name. -/
def assemble (name : String) (cls : Dump.Class) (profile : Profile) :
    Except Fault (Resolved Class) :=
  match (Dump.sortedMembers cls.members).mapM (entry cls profile) with
  | .error fault => .error fault
  | .ok built =>
      let entries := Resolved.all (built.filterMap id)
      .ok ⟨ofEntries name cls entries.value,
        NameSet.ofList ((namedBases cls).map (·.module)) ∪ entries.namespaces⟩

def notices (cls : Dump.Class) (profile : Profile) : List Notice :=
  (reached (entry cls profile) (Dump.sortedMembers cls.members)).flatMap
    (memberNotices cls profile)

end Class

/-! ## Modules -/

/-- What a member adds to the declaration of its module. -/
inductive RootEntry where
  | classDecl (cls : Class)
  | function (callable : Callable)
  | warning (fault : Fault)
deriving DecidableEq, Repr

namespace RootEntry

def class? : RootEntry → Option Class
  | .classDecl cls => some cls
  | _ => none

def function? : RootEntry → Option Callable
  | .function callable => some callable
  | _ => none

def warning? : RootEntry → Option Fault
  | .warning fault => some fault
  | _ => none

end RootEntry

/-- The declaration of a module, and a warning for each member left out. -/
structure Assembled where
  module : Module
  warnings : List Fault
deriving DecidableEq, Repr

namespace Module

/-- What a member adds to the declaration of the module, if anything. -/
def entry (profile : Profile) (member : Dump.Member) :
    Except Fault (Option (Resolved RootEntry)) :=
  match member.classifyRoot with
  | .classObject cls =>
      (Class.assemble member.name cls profile).map fun built => some (built.map .classDecl)
  | .function routine =>
      (buildRoutine member.name routine .function).map fun built => some (built.map .function)
  | .unsupported => .ok (some (.bare (.warning (.unsupportedRoot member.name))))
  | .skipped => .ok none

def memberNotices (module : Dump.Module) (profile : Profile) (member : Dump.Member) :
    List Notice :=
  match member.classifyRoot with
  | .classObject cls => Class.notices cls profile
  | .function routine => routineNotices member.name routine
  | .unsupported => [.unsupportedRoot module.name member.name]
  | .skipped => []

/-- The profile with the members of the universal base type that the dump lists. -/
def extendedProfile (module : Dump.Module) (profile : Profile) : Profile :=
  profile.withObjectMembers module.objectMembers

/-- The declaration of a module. Every stub imports `typing`. -/
def assemble (module : Dump.Module) (profile : Profile) : Except Fault Assembled :=
  match (Dump.sortedMembers module.members).mapM (entry (extendedProfile module profile)) with
  | .error fault => .error fault
  | .ok built =>
      let entries := Resolved.all (built.filterMap id)
      .ok
        ⟨⟨module.name, entries.value.filterMap RootEntry.class?,
            entries.value.filterMap RootEntry.function?, entries.namespaces.insert "typing"⟩,
          entries.value.filterMap RootEntry.warning?⟩

def notices (module : Dump.Module) (profile : Profile) : List Notice :=
  let extended := extendedProfile module profile
  (reached (entry extended) (Dump.sortedMembers module.members)).flatMap
    (memberNotices module extended)

end Module

end TypeStub.Decl
