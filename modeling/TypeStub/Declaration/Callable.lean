import TypeStub.Declaration
import TypeStub.Documentation
import TypeStub.Fault
import TypeStub.TypeExpr.Parser

/-!
Contract: callables and accessors made from what the host reports and what their
documentation says.

Owns:
- `CallableKind`, which decides about `self` and about the docstring;
- `Callable.build` and `Accessor.build`, with the namespaces of the types they use.

A fault of the signature comes before any of the documentation; there an ambiguity comes
first, then the type directives in order, then the type returned.
-/

namespace TypeStub

inductive CallableKind where
  | function
  | method
  | magicMethod
  | constructor
deriving DecidableEq, Repr

namespace CallableKind

/-- The description of the callable becomes a docstring. -/
def keepsDocstring : CallableKind → Bool
  | .function => true
  | .method => true
  | .magicMethod => false
  | .constructor => false

/-- The parameters of a callable whose signature is not known: anything goes. -/
def genericParameters (kind : CallableKind) : List Parameter :=
  let variadic := [Parameter.plain "args" .varPositional, Parameter.plain "kwargs" .varKeyword]
  if kind = .method ∨ kind = .magicMethod then
    Parameter.plain "self" .positionalOnly :: variadic
  else variadic

/-- The parameters that a callable really has. A constructor's signature is the one seen by
its callers, so `self` comes in front unless it is there. -/
def realParameters (kind : CallableKind) (parameters : List Parameter) : List Parameter :=
  if kind = .constructor ∧ parameters.head?.map (·.name) ≠ some "self" then
    Parameter.plain "self" .positionalOnly :: parameters
  else parameters

end CallableKind

namespace Decl

/-- The type that a directive gives to one of the parameters. -/
def resolveDirective (callable : String) (parameters : List TypeStub.Parameter)
    (directive : TypeDirective) : Except Fault (Resolved (String × TypeExpr)) :=
  if parameters.any fun parameter => parameter.name = directive.name then
    match TypeExpr.parse directive.expr with
    | .error malformed => .error (.malformedType malformed)
    | .ok type => .ok (type.map fun found => (directive.name, found))
  else .error (.unknownParameter callable directive.name)

/-- The type of the value returned, if documentation gives one. -/
def resolveReturn : Option String → Except Fault (Resolved (Option TypeExpr))
  | none => .ok (.bare none)
  | some expr =>
      match TypeExpr.parse expr with
      | .error malformed => .error (.malformedType malformed)
      | .ok type => .ok (type.map some)

def lastType (types : List (String × TypeExpr)) (name : String) : Option TypeExpr :=
  (types.reverse.find? fun entry => entry.1 = name).map (·.2)

/-- A parameter with the last type that documentation gives to its name. -/
def annotate (types : List (String × TypeExpr)) (parameter : TypeStub.Parameter) : Parameter :=
  ⟨parameter.name, parameter.kind, parameter.default, lastType types parameter.name⟩

def nonempty (text : String) : Option String :=
  if text.isEmpty then none else some text

namespace Callable

/-- The callable with the types and the description in documentation that is already
divided into its parts. -/
def ofParts (name : String) (kind : CallableKind) (real : List TypeStub.Parameter)
    (parts : Documentation.Parts) : Except Fault (Resolved Callable) :=
  match parts.paramTypes.mapM (resolveDirective name real) with
  | .error fault => .error fault
  | .ok directives =>
      match resolveReturn parts.rtype with
      | .error fault => .error fault
      | .ok returns =>
          let types := Resolved.all directives
          .ok
            ⟨⟨name, real.map (annotate types.value), returns.value,
                if kind.keepsDocstring then nonempty parts.description else none⟩,
              types.namespaces ∪ returns.namespaces⟩

/-- The declaration of a callable. -/
def build (name : String) (parameters : List TypeStub.Parameter) (doc : Option String)
    (kind : CallableKind) : Except Fault (Resolved Callable) :=
  let real := kind.realParameters parameters
  match Signature.validate real with
  | .error defect => .error (.invalidSignature name defect)
  | .ok () =>
      match doc with
      | none => .ok (.bare ⟨name, real.map (annotate []), none, none⟩)
      | some raw =>
          match Documentation.split (Documentation.dedent raw) with
          | .error ambiguity => .error (.ambiguousReturn ambiguity)
          | .ok parts => ofParts name kind real parts

end Callable

/-- The declaration of a data attribute: its type, and as documentation what is said about
the value returned. -/
def Accessor.build (name : String) (doc : Option String) : Except Fault (Resolved Accessor) :=
  match doc with
  | none => .ok (.bare ⟨name, none, none⟩)
  | some raw =>
      let clean := Documentation.dedent raw
      match Documentation.rtype clean with
      | .error ambiguity => .error (.ambiguousReturn ambiguity)
      | .ok expr =>
          match resolveReturn expr with
          | .error fault => .error fault
          | .ok type =>
              match Documentation.returnDoc clean with
              | .error ambiguity => .error (.ambiguousReturn ambiguity)
              | .ok text => .ok ⟨⟨name, type.value, text.bind nonempty⟩, type.namespaces⟩

end Decl

end TypeStub
