import TypeStub.Declaration
import TypeStub.Declaration.Docstring
import TypeStub.TypeExpr.Printer

/-!
Contract: the source text of declarations.

Owns:
- the parameter list of a callable with its markers `/` and `*`;
- the text of callables, attributes, classes and whole modules.

Nothing is checked here: any declaration has a text.
-/

namespace TypeStub.Decl

open Text

def indentUnit : List Char :=
  [' ', ' ', ' ', ' ']

/-! ## Parameters -/

namespace Parameter

def stars (kind : ParameterKind) : List Char :=
  match kind with
  | .varPositional => ['*']
  | .varKeyword => ['*', '*']
  | _ => []

/-- The parameter as a stub writes it; a default is only announced. -/
def text (parameter : Parameter) : List Char :=
  let named := stars parameter.kind ++ parameter.name.toList
  match parameter.annotation, parameter.default with
  | some type, some _ => named ++ ": ".toList ++ type.stubText ++ " = ...".toList
  | some type, none => named ++ ": ".toList ++ type.stubText
  | none, some _ => named ++ "=...".toList
  | none, none => named

/-- The marker after the last positional-only parameter, if the one before was it. -/
def slash (previous : Option ParameterKind) : List (List Char) :=
  if previous = some .positionalOnly then [['/']] else []

/-- The marker before the first keyword-only parameter, unless a variadic one does its
work. -/
def star (variadic : Bool) (previous : Option ParameterKind) (kind : ParameterKind) :
    List (List Char) :=
  if kind = .keywordOnly ∧ variadic = false ∧ previous ≠ some .keywordOnly then [['*']] else []

/-- The parts of a parameter list: parameters with the markers between them. -/
def parts (variadic : Bool) (previous : Option ParameterKind) :
    List Parameter → List (List Char)
  | [] => slash previous
  | parameter :: rest =>
      (if parameter.kind = .positionalOnly then [] else slash previous) ++
        star variadic previous parameter.kind ++
        parameter.text :: parts variadic (some parameter.kind) rest

def hasVariadic (parameters : List Parameter) : Bool :=
  parameters.any fun parameter => parameter.kind = .varPositional

/-- The text between the parentheses of a callable. -/
def listText (parameters : List Parameter) : List Char :=
  [',', ' '].intercalate (parts (hasVariadic parameters) none parameters)

end Parameter

/-! ## Callables and attributes -/

/-- The callable as a stub writes it, with its documentation as the body. -/
def Callable.text (callable : Callable) (indent : List Char) : List Char :=
  indent ++ "def ".toList ++ callable.name.toList ++ '(' ::
    (Parameter.listText callable.parameters ++ [')']) ++
    (match callable.returns with
      | some type => " -> ".toList ++ type.stubText
      | none => []) ++
    (match callable.doc with
      | some doc => ":\n".toList ++ Docstring.literal doc.toList (indent ++ indentUnit)
      | none => ": ...".toList)

/-- The attribute with its type, which is any if none is known, and its documentation
below. -/
def Accessor.text (accessor : Accessor) (indent : List Char) : List Char :=
  indent ++ accessor.name.toList ++ ": ".toList ++ (accessor.annotation.getD .any).stubText ++
    (match accessor.doc with
      | some doc => '\n' :: Docstring.literal doc.toList indent
      | none => [])

def Attribute.text (declared : Attribute) (indent : List Char) : List Char :=
  match declared with
  | .accessor attr => attr.text indent
  | .placeholder name => indent ++ name.toList ++ " = ...".toList

/-! ## Classes and modules -/

namespace Class

def header (cls : Class) : List Char :=
  "class ".toList ++ cls.name.toList ++
    (if cls.bases.isEmpty then []
      else '(' :: ([',', ' '].intercalate (cls.bases.map String.toList) ++ [')'])) ++ [':']

/-- The parts of the body in order: documentation, constructor, attributes, methods. -/
def body (cls : Class) : List (List Char) :=
  (cls.doc.toList.map fun doc => Docstring.literal doc.toList indentUnit) ++
    (cls.constructor.toList.map fun callable => callable.text indentUnit) ++
    (cls.attributes.map fun declared => declared.text indentUnit) ++
    ((cls.methods ++ cls.magicMethods).map fun callable => callable.text indentUnit)

/-- The class as a stub writes it; an empty body is an ellipsis. -/
def text (cls : Class) : List Char :=
  unrows ("@typing.final".toList :: cls.header ::
    (if cls.isEmptyBody then [indentUnit ++ ['.', '.', '.']] else cls.body))

end Class

namespace Module

/-- The lines at the top of a stub: one for annotations, then an import per namespace. -/
def header (module : Module) : List Char :=
  unrows ("from __future__ import annotations".toList ::
    module.namespaces.items.map fun namespaceName => "import ".toList ++ namespaceName.toList)

/-- The blocks of a stub, which a blank line separates. -/
def blocks (module : Module) : List (List Char) :=
  module.header :: (module.classes.map Class.text ++
    module.functions.map fun callable => callable.text [])

/-- The whole text of a stub. -/
def text (module : Module) : List Char :=
  ['\n', '\n'].intercalate module.blocks ++ ['\n']

def render (module : Module) : String :=
  String.ofList module.text

end Module

end TypeStub.Decl
