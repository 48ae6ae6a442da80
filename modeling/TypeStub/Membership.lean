import TypeStub.Profile

/-!
Contract: what becomes of a member of a class or of a module.

Owns:
- `ClassMember` and `RootMember`, the outcomes;
- `classify` and `classifyRoot`, which give every member exactly one.

The rules have an order, and the first that applies decides: what is inherited is left out
before anything else is asked, and constructors are recognised before names are looked up
in the profile.
-/

namespace TypeStub

/-- Why a class does not declare one of its members. -/
inductive SkipReason where
  /-- A base has the same member, or every enumeration has one of that name. -/
  | inherited
  | noConstructorSignature
  | blacklisted
  /-- It is the universal base type's own. -/
  | objectMember
  | dunderValue
deriving DecidableEq, Repr

inductive ClassMember where
  | constructor (signature : List Parameter)
  | method (routine : Dump.Routine)
  | magicMethod (routine : Dump.Routine)
  | accessor (doc : Option String)
  | placeholder
  | skipped (reason : SkipReason)
deriving DecidableEq, Repr

/-- What becomes of a member of a module. -/
inductive RootMember where
  | classObject (cls : Dump.Class)
  | function (routine : Dump.Routine)
  | unsupported
  | skipped
deriving DecidableEq

namespace Dump.Class

/-- The class has the member from elsewhere: from a declared base that lists the very same
member, or, for an enumeration, from being one. -/
def inherits (cls : Dump.Class) (profile : Profile) (member : Dump.Member) : Bool :=
  (cls.isEnum && decide (member.name ∈ profile.enumSynthetic)) ||
    cls.bases.any fun base => base.members.any fun other => other == member

def isConstructorName (name : String) : Bool :=
  name == "__init__" || name == "__new__"

/-- What becomes of a member by its value alone. -/
def classifyValue (member : Dump.Member) : ClassMember :=
  match member.value with
  | .routine routine =>
      if isDunder member.name then .magicMethod routine else .method routine
  | .descriptor doc =>
      if isDunder member.name then .skipped .dunderValue else .accessor doc
  | .classObject _ =>
      if isDunder member.name then .skipped .dunderValue else .placeholder
  | .value _ =>
      if isDunder member.name then .skipped .dunderValue else .placeholder

/-- What becomes of a member of the class. -/
def classify (cls : Dump.Class) (profile : Profile) (member : Dump.Member) : ClassMember :=
  if cls.inherits profile member then .skipped .inherited
  else if isConstructorName member.name then
    match cls.signature with
    | some signature => .constructor signature
    | none => .skipped .noConstructorSignature
  else if member.name ∈ profile.blacklist then .skipped .blacklisted
  else if profile.isObjectMember member then .skipped .objectMember
  else classifyValue member

end Dump.Class

/-- What becomes of a member of a module: classes and native routines are declared, and
reserved names are passed over. -/
def Dump.Member.classifyRoot (member : Dump.Member) : RootMember :=
  if isDunder member.name then .skipped
  else
    match member.value with
    | .classObject cls => .classObject cls
    | .routine routine => if routine.builtin then .function routine else .unsupported
    | .descriptor _ => .unsupported
    | .value _ => .unsupported

end TypeStub
