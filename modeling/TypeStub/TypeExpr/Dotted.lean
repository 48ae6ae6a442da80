import TypeStub.Resolved
import TypeStub.TypeExpr

/-!
Contract: dotted names and the namespace that each refers to.

Owns:
- the segments of a dotted name;
- `Dotted.resolve`, the type that a dotted name denotes with the namespace it needs.
-/

namespace TypeStub.Dotted

def segments (path : List Char) : List (List Char) :=
  path.splitOn '.'

def isComplete (path : List Char) : Bool :=
  (segments path).all fun segment => !segment.isEmpty

/-- The namespace that a name of two or more segments refers to: its first segment. -/
def namespaceOf (path : List Char) : NameSet :=
  match segments path with
  | first :: _ :: _ => NameSet.ofList [String.ofList first]
  | _ => ∅

/-- The type that a name denotes. -/
def resolve (path : List Char) : Resolved TypeExpr :=
  ⟨.name (String.ofList path), namespaceOf path⟩

end TypeStub.Dotted
