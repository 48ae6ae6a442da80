import TypeStub.NameSet
import TypeStub.Parameter
import TypeStub.TypeExpr

/-!
Contract: the declarations that a stub consists of.

Owns: the trees of parameters, callables, accessors, attributes, classes and modules.

Does not own: how they are written (`TypeStub.Declaration.Printer`) or what they are made
from (`TypeStub.Declaration.Callable`, `TypeStub.Declaration.Assembly`).
-/

namespace TypeStub.Decl

structure Parameter where
  name : String
  kind : ParameterKind
  default : Option String
  annotation : Option TypeExpr
deriving DecidableEq, Repr

structure Callable where
  name : String
  parameters : List Parameter
  returns : Option TypeExpr
  doc : Option String
deriving DecidableEq, Repr

structure Accessor where
  name : String
  annotation : Option TypeExpr
  doc : Option String
deriving DecidableEq, Repr

/-- An attribute of a class: one with a type, or a name with any value. -/
inductive Attribute where
  | accessor (accessor : Accessor)
  | placeholder (name : String)
deriving DecidableEq, Repr

def Attribute.name : Attribute → String
  | .accessor declared => declared.name
  | .placeholder name => name

structure Class where
  name : String
  bases : List String
  constructor : Option Callable
  attributes : List Attribute
  methods : List Callable
  magicMethods : List Callable
  doc : Option String
deriving DecidableEq, Repr

namespace Class

def memberCount (cls : Class) : Nat :=
  cls.constructor.toList.length + cls.attributes.length + cls.methods.length +
    cls.magicMethods.length

def isEmptyBody (cls : Class) : Bool :=
  cls.doc.isNone && cls.memberCount == 0

end Class

structure Module where
  name : String
  classes : List Class
  functions : List Callable
  namespaces : NameSet
deriving DecidableEq, Repr

end TypeStub.Decl
