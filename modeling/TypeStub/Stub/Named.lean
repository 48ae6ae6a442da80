import TypeStub.Config
import TypeStub.Dump.Directory
import TypeStub.Stub

/-!
Contract: the stub of a module that is known by its name.

Owns:
- the pass of a stub through the formatter;
- `Stub.named`, from a directory of dumps to the finished stub, with its notices.
-/

namespace TypeStub.Stub

/-- The stub with the text that the configured formatter makes of it, and the tree that the
formatter leaves. -/
def formatted (launch : Launcher) (config : Config) (stub : Stub) (filename : String)
    (tree : FileTree) : Except Fault Stub × FileTree :=
  match Formatter.format launch config.formatter stub.text filename tree with
  | (.error failure, tree) => (.error (.formatting failure), tree)
  | (.ok text, tree) => (.ok { stub with text }, tree)

/-- The stub of the module of that name before it is formatted, whose dump is in the
directory. -/
def rendered (files : Files) (config : Config) (directory name : String) : Except Fault Stub := do
  let module ← Dump.Module.load files directory name
  generate module config.profile

/-- The stub of the module of that name, whose dump is in the directory. It is formatted if
`formatAs` says for which file, in a tree that the formatter can change. -/
def named (files : Files) (launch : Launcher) (config : Config) (directory name : String)
    (formatAs : Option String) (tree : FileTree) : Except Fault Stub × FileTree :=
  match rendered files config directory name, formatAs with
  | .error fault, _ => (.error fault, tree)
  | .ok stub, none => (.ok stub, tree)
  | .ok stub, some filename => formatted launch config stub filename tree

/-- What is reported while the stub of a named module is made. -/
def namedNotices (files : Files) (config : Config) (directory name : String) : List Notice :=
  match Dump.Module.load files directory name with
  | .error _ => []
  | .ok module => Decl.Module.notices module config.profile

end TypeStub.Stub
