import TypeStub.Documentation.Dedent
import TypeStub.Documentation.Description
import TypeStub.Documentation.Directive

/-!
Contract: documentation divided into its description and its directives.

Owns: `Documentation.Parts`, and `Documentation.split`, which refuses a text that gives the
type or the description of the value returned twice.
-/

namespace TypeStub.Documentation

structure Parts where
  description : String
  paramTypes : List TypeDirective
  rtype : Option String
  returnDoc : Option String
deriving DecidableEq, Repr

/-- The parts of a text. Of two ambiguities, that of the type is reported. -/
def split (doc : String) : Except AmbiguousReturn Parts :=
  match rtype doc with
  | .error ambiguity => .error ambiguity
  | .ok type =>
      match returnDoc doc with
      | .error ambiguity => .error ambiguity
      | .ok text => .ok ⟨description doc, paramTypes doc, type, text⟩

end TypeStub.Documentation
