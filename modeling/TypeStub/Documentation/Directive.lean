import TypeStub.Text.Blank
import TypeStub.Text.Line

/-!
Contract: the directive rows of documentation.

Owns:
- `TypeDirective`, a row `:type NAME: EXPRESSION`;
- `ReturnDirective`, the rows `:rtype: EXPRESSION` and `:return: TEXT`;
- the directives of a whole text, in order.

A directive fills a row by itself. Only spaces and tabs may stand before it or around what
it says, and carriage returns besides them at its end.
-/

namespace TypeStub

open Text

/-- A row that gives the type of a parameter. -/
structure TypeDirective where
  name : String
  expr : String
deriving DecidableEq, Repr

/-- The kinds of rows about the value returned. -/
inductive ReturnDirective where
  | rtype
  | returns
deriving DecidableEq, Repr

/-- Several rows of a kind that may occur once. -/
structure AmbiguousReturn where
  directive : ReturnDirective
  count : Nat
deriving DecidableEq, Repr

/-- How a row about the value returned begins. -/
def ReturnDirective.marker : ReturnDirective → String
  | .rtype => ":rtype:"
  | .returns => ":return:"

/-- The message about several rows of one kind. -/
def AmbiguousReturn.message (ambiguity : AmbiguousReturn) : String :=
  "multiple return annotations found with " ++ ambiguity.directive.marker ++ " (" ++
    toString ambiguity.count ++ " lines)"

namespace Directive

/-- What follows `marker` in a text that begins with it. -/
def after? : (marker text : List Char) → Option (List Char)
  | [], text => some text
  | _ :: _, [] => none
  | expected :: marker, c :: text => if expected = c then after? marker text else none

def isRowEnd (c : Char) : Bool :=
  isSpaceOrTab c || c == '\r'

/-- What a directive says: the row after its marker, without the blanks around it. -/
def payload (text : List Char) : List Char :=
  trimEndBy isRowEnd (text.dropWhile isSpaceOrTab)

/-- The first character of a parameter's name. -/
def isNameStart (c : Char) : Bool :=
  c.isAlpha || c == '_'

/-- The further characters of a parameter's name. -/
def isNamePart (c : Char) : Bool :=
  c.isAlphanum || c == '_'

/-- The directive in a row after `:type`: blanks, a name, a colon and an expression. -/
def namedType? (text : List Char) : Option TypeDirective :=
  if (text.head?.any isSpaceOrTab) then
    let named := text.dropWhile isSpaceOrTab
    if named.head?.any isNameStart then
      match named.dropWhile isNamePart with
      | ':' :: expr =>
          some ⟨String.ofList (named.takeWhile isNamePart), String.ofList (payload expr)⟩
      | _ => none
    else none
  else none

def typeOfRow? (row : List Char) : Option TypeDirective :=
  (after? ":type".toList (row.dropWhile isSpaceOrTab)).bind namedType?

def returnOfRow? (kind : ReturnDirective) (row : List Char) : Option String :=
  (after? kind.marker.toList (row.dropWhile isSpaceOrTab)).map
    fun text => String.ofList (payload text)

end Directive

namespace Documentation

/-- The type directives of a text, in order. -/
def paramTypes (doc : String) : List TypeDirective :=
  (rows doc.toList).filterMap Directive.typeOfRow?

/-- What the rows of one kind say, in order. -/
def returnRows (kind : ReturnDirective) (doc : String) : List String :=
  (rows doc.toList).filterMap (Directive.returnOfRow? kind)

/-- What the only row of a kind says; several rows are an error. -/
def single (kind : ReturnDirective) (doc : String) : Except AmbiguousReturn (Option String) :=
  match returnRows kind doc with
  | [] => .ok none
  | [only] => .ok (some only)
  | several => .error ⟨kind, several.length⟩

/-- The type of the value returned, as written. -/
def rtype (doc : String) : Except AmbiguousReturn (Option String) :=
  single .rtype doc

/-- The description of the value returned. -/
def returnDoc (doc : String) : Except AmbiguousReturn (Option String) :=
  single .returns doc

end Documentation

end TypeStub
