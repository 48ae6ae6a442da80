import TypeStub.Config.Defect
import TypeStub.Documentation.Directive
import TypeStub.Formatter.Failure
import TypeStub.Signature
import TypeStub.TypeExpr.Malformed

/-!
Contract: what can go wrong on the way from a dump to a stub.

Owns:
- `Fault`, the closed list of causes;
- the message of each, and which of them end a run.
-/

namespace TypeStub

/-- A cause for which a stub, or a part of it, cannot be made. -/
inductive Fault where
  | malformedType (malformed : Malformed)
  | unknownParameter (callable parameter : String)
  /-- Documentation describes the value returned more than once. -/
  | ambiguousReturn (ambiguity : AmbiguousReturn)
  | unsupportedRoot (name : String)
  | invalidSignature (callable : String) (defect : SignatureDefect)
  | formatting (failure : FormatterFailure)
  | moduleNotFound (name path : String)
  | invalidDump (path : String)
  | config (path : String) (defect : ConfigDefect)
  | io (path : String) (cause : OsCause)
deriving DecidableEq, Repr

namespace Fault

/-- The whole message about a fault. -/
def message : Fault → String
  | .malformedType malformed => malformed.message
  | .unknownParameter callable parameter =>
      "the parameter " ++ parameter ++ " is defined in the documentation of " ++ callable ++
        " but not in its signature"
  | .ambiguousReturn ambiguity => ambiguity.message
  | .unsupportedRoot name => "unsupported root construction " ++ name
  | .invalidSignature callable defect =>
      "invalid signature for " ++ callable ++ ": " ++ defect.message
  | .formatting failure => "formatting failed: " ++ failure.message
  | .moduleNotFound name path => "module " ++ name ++ " not found (looked for " ++ path ++ ")"
  | .invalidDump path => "invalid reflection dump " ++ path
  | .config path defect => "invalid config " ++ path ++ ": " ++ defect.message
  | .io path cause => "i/o error on " ++ path ++ ": " ++ cause.message

/-- Every fault ends a run but an unsupported member of a module, which is only left out of
the stub. -/
def isFatal : Fault → Bool
  | .unsupportedRoot _ => false
  | _ => true

end Fault

end TypeStub
