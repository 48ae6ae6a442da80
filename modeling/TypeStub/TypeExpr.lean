/-!
Contract: the type expressions of documentation and stubs.

Owns:
- `Generic`, the three constructors that take type arguments in parentheses;
- `TypeExpr`, the tree of a type, and its decidable equality.

Does not own: the two written forms (`TypeStub.TypeExpr.Printer`) and the reader
(`TypeStub.TypeExpr.Parser`).
-/

namespace TypeStub

/-- Constructors that documentation applies to arguments in parentheses. -/
inductive Generic where
  | iter
  | list
  | tuple
deriving DecidableEq, Repr

namespace Generic

/-- The constructor's name in documentation. -/
def docName : Generic → String
  | .iter => "iter"
  | .list => "list"
  | .tuple => "tuple"

/-- The constructor's name in a stub. -/
def stubName : Generic → String
  | .iter => "typing.Iterator"
  | .list => "list"
  | .tuple => "tuple"

/-- The constructor that documentation means by a name: its own name, or for an iterator
also the name used in stubs. -/
def ofDocName? (name : String) : Option Generic :=
  if name = "iter" ∨ name = "typing.Iterator" then some .iter
  else if name = "list" then some .list
  else if name = "tuple" then some .tuple
  else none

/-- How many arguments the constructor takes: an iterator and a list exactly one, a tuple
any number. -/
def takes : Generic → Nat → Bool
  | .iter, count => count == 1
  | .list, count => count == 1
  | .tuple, _ => true

end Generic

/-- A type as documentation or a stub writes it. -/
inductive TypeExpr where
  /-- A dotted name such as `str` or `xsd.String`. -/
  | name (path : String)
  /-- A value standing in a type: a number, a quoted text or an ellipsis. -/
  | literal (text : String)
  | generic (ctor : Generic) (arguments : List TypeExpr)
  | union (alternatives : List TypeExpr)
  | subscript (base : TypeExpr) (arguments : List TypeExpr)
deriving Repr

namespace TypeExpr

/-- The type of every value. -/
def any : TypeExpr :=
  .name "typing.Any"

instance : Inhabited TypeExpr := ⟨any⟩

/-! ## Equality -/

mutual

/-- Whether two types are the same tree. -/
def same : TypeExpr → TypeExpr → Bool
  | .name left, .name right => left == right
  | .literal left, .literal right => left == right
  | .generic leftCtor left, .generic rightCtor right =>
      leftCtor == rightCtor && sameAll left right
  | .union left, .union right => sameAll left right
  | .subscript leftBase left, .subscript rightBase right =>
      same leftBase rightBase && sameAll left right
  | _, _ => false

/-- Whether two lists of types are the same, position by position. -/
def sameAll : List TypeExpr → List TypeExpr → Bool
  | [], [] => true
  | left :: lefts, right :: rights => same left right && sameAll lefts rights
  | _, _ => false

end

mutual

theorem same_iff : ∀ left right : TypeExpr, same left right = true ↔ left = right
  | .name _, right => by cases right <;> simp [same]
  | .literal _, right => by cases right <;> simp [same]
  | .generic _ lefts, right => by
      cases right <;> simp [same, sameAll_iff lefts]
  | .union lefts, right => by
      cases right <;> simp [same, sameAll_iff lefts]
  | .subscript base lefts, right => by
      cases right <;> simp [same, same_iff base, sameAll_iff lefts]

theorem sameAll_iff : ∀ lefts rights : List TypeExpr, sameAll lefts rights = true ↔ lefts = rights
  | [], rights => by cases rights <;> simp [sameAll]
  | left :: lefts, rights => by
      cases rights <;> simp [sameAll, same_iff left, sameAll_iff lefts]

end

instance : DecidableEq TypeExpr := fun left right =>
  decidable_of_iff (same left right = true) (same_iff left right)

end TypeExpr

end TypeStub
