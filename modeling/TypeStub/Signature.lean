import TypeStub.Parameter

/-!
Contract: which parameter lists are signatures.

Owns:
- `SignatureDefect`, what keeps a parameter list from being a signature;
- `Signature.validate`, which reports the first defect from the left.
-/

namespace TypeStub

/-- What is wrong with a parameter list. -/
inductive SignatureDefect where
  | duplicate (name : String)
  | misplaced (name : String) (kind previous : ParameterKind)
  /-- Two parameters take any number of arguments of one kind. -/
  | repeatedVariadic (kind : ParameterKind)
deriving DecidableEq, Repr

def SignatureDefect.message : SignatureDefect → String
  | .duplicate name => "duplicate parameter " ++ name
  | .misplaced name kind previous =>
      "parameter " ++ name ++ " (" ++ kind.label ++ ") follows a " ++ previous.label ++
        " parameter"
  | .repeatedVariadic kind => "more than one " ++ kind.label ++ " parameter"

namespace Signature

/-- The defect of a parameter beside its left neighbour. -/
def defectAfter (previous : Option ParameterKind) (parameter : Parameter) :
    Option SignatureDefect :=
  match previous with
  | none => none
  | some kind =>
      if parameter.kind.rank < kind.rank then
        some (.misplaced parameter.name parameter.kind kind)
      else if parameter.kind = kind ∧ kind.isVariadic then some (.repeatedVariadic kind)
      else none

/-- Validate parameters after those of the names `seen`, the last of which has the kind
`previous`. -/
def validateFrom (seen : List String) (previous : Option ParameterKind) :
    List Parameter → Except SignatureDefect Unit
  | [] => .ok ()
  | parameter :: rest =>
      if parameter.name ∈ seen then .error (.duplicate parameter.name)
      else
        match defectAfter previous parameter with
        | some defect => .error defect
        | none => validateFrom (parameter.name :: seen) (some parameter.kind) rest

/-- Accept a parameter list if its names differ, its kinds stand in order and none that
takes any number of arguments occurs twice. -/
def validate (parameters : List Parameter) : Except SignatureDefect Unit :=
  validateFrom [] none parameters

end Signature

end TypeStub
