import TypeStub.Declaration.Assembly
import TypeStub.Declaration.Printer

/-!
Contract: the stub of a module.

Owns: `Stub`, its text with the warnings about what it leaves out, and `Stub.generate`.
-/

namespace TypeStub

/-- The text of a stub, and a warning for each member that it leaves out. -/
structure Stub where
  text : String
  warnings : List Fault
deriving DecidableEq, Repr

/-- The stub of a module. -/
def Stub.generate (module : Dump.Module) (profile : Profile) : Except Fault Stub :=
  match Decl.Module.assemble module profile with
  | .error fault => .error fault
  | .ok assembled => .ok ⟨assembled.module.render, assembled.warnings⟩

end TypeStub
