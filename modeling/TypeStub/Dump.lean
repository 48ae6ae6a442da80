import TypeStub.Parameter

/-!
Contract: the description of a module that a host dumps.

Owns:
- `Dump.Module` and what it consists of: members, whose values are routines, data
  descriptors, classes or plain values;
- equality of values, which decides what a class inherits;
- the order of members in a stub.

Member lists include what a class inherits.

Does not own: the written form of dumps (`TypeStub.Dump.Schema`).
-/

namespace TypeStub.Dump

structure Routine where
  /-- The routine is implemented natively. -/
  builtin : Bool
  doc : Option String
  /-- Absent when the host could not find the signature. -/
  signature : Option (List Parameter)
deriving DecidableEq, Repr

mutual

inductive Object where
  | routine (routine : Routine)
  /-- An attribute with hooks for reading and writing. -/
  | descriptor (doc : Option String)
  | classObject (cls : Class)
  /-- Any other value; its written form is informational. -/
  | value (written : Option String)

structure Class where
  name : String
  module : String
  /-- The name within the module, empty if the dump leaves it out. -/
  qualname : String
  doc : Option String
  bases : List Class
  members : List Member
  isEnum : Bool
  /-- The signature of the constructor, if the host could find it. -/
  signature : Option (List Parameter)

structure Member where
  name : String
  value : Object

end

structure Module where
  name : String
  doc : Option String
  members : List Member
  objectMembers : List Member

/-! ## Equality -/

mutual

def Object.same : Object → Object → Bool
  | .routine left, .routine right => left == right
  | .descriptor left, .descriptor right => left == right
  | .classObject left, .classObject right => Class.same left right
  | .value left, .value right => left == right
  | _, _ => false

def Class.same : Class → Class → Bool
  | ⟨name, module, qualname, doc, bases, members, isEnum, signature⟩, right =>
      name == right.name && module == right.module && qualname == right.qualname &&
        doc == right.doc && Class.sameAll bases right.bases &&
        Member.sameAll members right.members && isEnum == right.isEnum &&
        signature == right.signature

def Member.same : Member → Member → Bool
  | ⟨name, value⟩, right => name == right.name && Object.same value right.value

def Class.sameAll : List Class → List Class → Bool
  | [], [] => true
  | left :: lefts, right :: rights => Class.same left right && Class.sameAll lefts rights
  | _, _ => false

def Member.sameAll : List Member → List Member → Bool
  | [], [] => true
  | left :: lefts, right :: rights => Member.same left right && Member.sameAll lefts rights
  | _, _ => false

end

mutual

theorem Object.same_iff : ∀ left right : Object, Object.same left right = true ↔ left = right
  | .routine _, right => by cases right <;> simp [Object.same]
  | .descriptor _, right => by cases right <;> simp [Object.same]
  | .classObject left, right => by cases right <;> simp [Object.same, Class.same_iff left]
  | .value _, right => by cases right <;> simp [Object.same]

theorem Class.same_iff : ∀ left right : Class, Class.same left right = true ↔ left = right
  | ⟨_, _, _, _, bases, members, _, _⟩, right => by
      cases right
      simp [Class.same, Class.sameAll_iff bases, Member.sameAll_iff members, and_assoc]

theorem Member.same_iff : ∀ left right : Member, Member.same left right = true ↔ left = right
  | ⟨_, value⟩, right => by
      cases right
      simp [Member.same, Object.same_iff value]

theorem Class.sameAll_iff :
    ∀ lefts rights : List Class, Class.sameAll lefts rights = true ↔ lefts = rights
  | [], rights => by cases rights <;> simp [Class.sameAll]
  | left :: lefts, rights => by
      cases rights <;> simp [Class.sameAll, Class.same_iff left, Class.sameAll_iff lefts]

theorem Member.sameAll_iff :
    ∀ lefts rights : List Member, Member.sameAll lefts rights = true ↔ lefts = rights
  | [], rights => by cases rights <;> simp [Member.sameAll]
  | left :: lefts, rights => by
      cases rights <;> simp [Member.sameAll, Member.same_iff left, Member.sameAll_iff lefts]

end

instance : DecidableEq Object := fun left right =>
  decidable_of_iff _ (Object.same_iff left right)

instance : DecidableEq Class := fun left right =>
  decidable_of_iff _ (Class.same_iff left right)

instance : DecidableEq Member := fun left right =>
  decidable_of_iff _ (Member.same_iff left right)

deriving instance DecidableEq for Module

/-! ## Names -/

namespace Class

/-- The name within the module, which is the plain name unless the dump says otherwise. -/
def qualifiedName (cls : Class) : String :=
  if cls.qualname.isEmpty then cls.name else cls.qualname

def isObject (cls : Class) : Bool :=
  cls.module == "builtins" && cls.qualifiedName == "object"

def reference (cls : Class) : String :=
  cls.module ++ "." ++ cls.qualifiedName

end Class

/-- Names that the language keeps for itself begin with two underscores. -/
def isDunder (name : String) : Bool :=
  name.toList.take 2 == ['_', '_']

/-- Members by name, those of one name in the order given. -/
def sortedMembers (members : List Member) : List Member :=
  members.mergeSort fun left right => left.name ≤ right.name

end TypeStub.Dump
