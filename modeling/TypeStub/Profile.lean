import TypeStub.Dump
import TypeStub.NameSet

/-!
Contract: what a host's universal base type and its enumerations bring to every class.

Owns:
- `Profile`, the names and members that stubs leave out;
- the standard profile.
-/

namespace TypeStub

/-- Members that classes have from the host and that a stub leaves out. -/
structure Profile where
  version : String
  blacklist : NameSet
  enumSynthetic : NameSet
  /-- Members of the universal base type; the first of a name counts. -/
  objectMembers : List Dump.Member
deriving DecidableEq

namespace Profile

def standard : Profile where
  version := "cpython-3"
  blacklist := NameSet.ofList
    ["__class__", "__dir__", "__doc__", "__init_subclass__", "__module__", "__new__",
     "__subclasshook__", "__hash__", "__lt__", "__le__", "__gt__", "__ge__", "__eq__", "__ne__",
     "__int__", "__repr__"]
  enumSynthetic := NameSet.ofList ["__getitem__", "__members__", "__qualname__", "__name__"]
  objectMembers := []

/-- The profile with more members of the universal base type. Of two members of one name,
the earlier one stays. -/
def withObjectMembers (profile : Profile) (members : List Dump.Member) : Profile :=
  { profile with objectMembers := profile.objectMembers ++ members }

/-- The profile with more names that no class declares. -/
def withBlacklist (profile : Profile) (names : List String) : Profile :=
  { profile with blacklist := profile.blacklist ∪ NameSet.ofList names }

def withEnumSynthetic (profile : Profile) (names : List String) : Profile :=
  { profile with enumSynthetic := profile.enumSynthetic ∪ NameSet.ofList names }

/-- The value of the universal base type's member of that name. -/
def objectMember? (profile : Profile) (name : String) : Option Dump.Object :=
  (profile.objectMembers.find? fun member => member.name = name).map (·.value)

/-- The member is the universal base type's own. -/
def isObjectMember (profile : Profile) (member : Dump.Member) : Bool :=
  profile.objectMember? member.name == some member.value

end Profile

end TypeStub
