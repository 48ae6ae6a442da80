import TypeStub.Dump.Schema
import TypeStub.Files
import TypeStub.Files.Path

/-!
Contract: dumps in files.

Owns:
- the path of a module's dump in a directory of dumps;
- loading a dump by its path or by the name of its module.
-/

namespace TypeStub.Dump

def pathFor (directory name : String) : String :=
  Path.join directory (name ++ ".json")

/-- The module that a text describes; `path` is where the text comes from. -/
def Module.ofText (path text : String) : Except Fault Module :=
  match Module.read? text with
  | none => .error (.invalidDump path)
  | some module => .ok module

def Module.loadFile (files : Files) (path : String) : Except Fault Module :=
  match files.readText path with
  | .error cause => .error (.io path cause)
  | .ok text => Module.ofText path text

/-- The module of that name, whose dump is in the directory. -/
def Module.load (files : Files) (directory name : String) : Except Fault Module :=
  match files.readText (pathFor directory name) with
  | .error .notFound => .error (.moduleNotFound name (pathFor directory name))
  | .error cause => .error (.io (pathFor directory name) cause)
  | .ok text => Module.ofText (pathFor directory name) text

end TypeStub.Dump
