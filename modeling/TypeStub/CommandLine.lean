import TypeStub.CommandLine.Request
import TypeStub.FileTree
import TypeStub.Stub.Named

/-!
Contract: a run of the command.

Owns:
- what a request makes before anything is written, with its notices;
- `Outcome` and `Request.run`, from a file tree to the file tree after the run.

Does not own: a standard output that cannot be written. Here it takes every text, so that a run
without a file to write has no fault once its text is made.

Nothing is written before the text that goes out is whole.
-/

namespace TypeStub

/-- What a run leaves besides files. -/
structure Outcome where
  stdout : String
  /-- How many members the stub leaves out; said before the stub is written. -/
  skipped : Nat
  result : Except Fault Unit

/-- A usage that is wrong ends a run with this code. -/
def usageExitCode : Nat :=
  2

def Outcome.exitCode (outcome : Outcome) : Nat :=
  match outcome.result with
  | .ok () => 0
  | .error _ => 1

namespace Request

def isToStdout (request : Request) : Bool :=
  request.out == "-"

/-- The configuration that a request names, or that of the directory it is made in. -/
def configuration (request : Request) (files : Files) : Except Fault Config :=
  match request.config with
  | some path => Config.load files path
  | none => .ok (Config.ofDirectory files ".")

def formatAs (request : Request) : Option String :=
  if request.formatted then some request.out else none

/-- The stub that a request asks for, and the tree that the formatter leaves. -/
def stub (request : Request) (files : Files) (launch : Launcher) (tree : FileTree) :
    Except Fault Stub × FileTree :=
  match request.configuration files with
  | .error fault => (.error fault, tree)
  | .ok config =>
      Stub.named files launch config request.dumps request.module request.formatAs tree

/-- The files that a run reads: a configuration and a dump. -/
def readPaths (request : Request) : List String :=
  [request.config.getD (Config.pathIn "."), Dump.pathFor request.dumps request.module]

def notices (request : Request) (files : Files) : List Notice :=
  let configNotices :=
    match request.config with
    | some path => Config.loadNotices files path
    | none => Config.ofDirectoryNotices files "."
  configNotices ++
    match request.configuration files with
    | .error _ => []
    | .ok config => Stub.namedNotices files config request.dumps request.module

/-- Carry out a request. -/
def run (request : Request) (launch : Launcher) (tree : FileTree) : Outcome × FileTree :=
  match request.stub tree.files launch tree with
  | (.error fault, tree) => (⟨"", 0, .error fault⟩, tree)
  | (.ok stub, tree) =>
      if request.isToStdout then (⟨stub.text, stub.warnings.length, .ok ()⟩, tree)
      else
        match tree.save request.out stub.text with
        | (result, written) => (⟨"", stub.warnings.length, result⟩, written)

end Request

end TypeStub
