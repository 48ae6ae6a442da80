import TypeStub.Formatter
import TypeStub.Tool.Count
import TypeStub.Tool.Excerpt
import TypeStub.Tool.LineEditor
import TypeStub.Tool.Shell
import TypeStub.Tool.System.Setting
import TypeStub.Tool.Transliterate

/-!
Contract: the programs that a formatter command can name.

Owns:
- `program?`, the programs by their names;
- `toolbox`, the way to run one of them among the files of a tree.

A run may name any command as its formatter. The shell and the filters that such commands are
made of run inside the library, so that the text a command makes depends on its arguments, its
input and the tree alone. `Formatter.format` takes the way to run a program as a parameter, and
what is proved of it holds for every way.

Does not own: the help pages and versions of programs, or time, which does not pass for them. A
program that is not in the toolbox is not found.
-/

namespace TypeStub.Tool

/-! ## Programs -/

/-- The programs that can be run, where scripts can run scripts up to a depth. -/
def program? : (depth : Nat) → Shell.Programs
  | 0, _ => none
  | depth + 1, name =>
      match String.ofList name with
      | "cat" => some cat
      | "dash" => some (sh (program? depth))
      | "false" => some fail
      | "head" => some head
      | "sed" => some (sed (sh (program? depth)))
      | "tail" => some tail
      | "tr" => some tr
      | "true" => some succeed
      | "wc" => some wc
      | _ => none

def scriptDepth : Nat :=
  100

/-- The variables that every program finds. -/
def usualEnvironment : Environment :=
  [("HOME".toList, "/root".toList), ("PATH".toList, Shell.usualPath)]

/-! ## Launching -/

/-- How many bytes of its input a program can leave before this shows. -/
def inputRoom : Nat :=
  65536

/-- How many bytes of its input a program has to take before there is room for more. -/
def inputPage : Nat :=
  4096

/-- The longest argument that a program can be given, in bytes, with the mark at its end. -/
def longestArgument : Nat :=
  131072

/-- All of an input could be written, of which a program has taken some bytes. -/
def isWritten (size taken : Nat) : Bool :=
  size ≤ taken / inputPage * inputPage + inputRoom

/-- The program of a name, or why it cannot be started. -/
def findProgram (task : Task) (name : ByteText) : Except OsCause ByteText :=
  if Shell.isPath name then task.world.program task.process name
  else if name.isEmpty then .error .notFound
  else if World.longestName < name.length then .error .nameTooLong
  else
    (Shell.firstProgram task.world task.process .notFound
      (Shell.candidates Shell.usualPath name)).map Shell.FoundProgram.name

/-- The pipes of a program that is started. -/
structure Ends where
  input : Nat
  output : Nat
  complaints : Nat

def startTask (world : World) (directory : Nat) (input : ByteArray) : Ends × Task :=
  let (world, first) := world.addNode (.pipe (.filled input))
  let (world, second) := world.addNode (.pipe ⟨.empty, 0, none, true, false⟩)
  let (world, third) := world.addNode (.pipe ⟨.empty, 0, none, true, false⟩)
  let opened := #[readingEnd first, writingEnd second, writingEnd third]
  let process : Process :=
    { descriptors := [(0, 0), (1, 1), (2, 2)]
      directory
      ignored := []
      mask := usualMask
      environment := usualEnvironment }
  (⟨first, second, third⟩, { world := { world with opened }, process, held := .none })

/-- The pipe with a number, or one that holds nothing. -/
def World.pipe (world : World) (number : Nat) : Pipe :=
  match world.node? number with
  | some (.pipe pipe) => pipe
  | _ => .filled .empty

def finished (ends : Ends) (size : Nat) (status : ExitStatus) (world : World) : FinishedProcess where
  status
  stdout := (world.pipe ends.output).bytes
  stderr := (world.pipe ends.complaints).bytes
  taken :=
    if isWritten size (world.pipe ends.input).taken then .ok () else .error .brokenPipe

/-- Run a program of the toolbox among the files of a tree. -/
def toolbox : Launcher := fun tree program arguments input =>
  let name := ofString program
  let arguments := arguments.map ofString
  if (name :: arguments).any (·.contains '\x00') then
    .error (.other "nul byte found in provided data")
  else if (name :: arguments).any (longestArgument ≤ ·.length) then .error .argumentTooLong
  else do
    let (world, directory) := World.ofTree tree
    let (ends, task) := startTask world directory input
    let known ← findProgram task name
    match program? scriptDepth known with
    | none => .error .permissionDenied
    | some program =>
        let (outcome, task) := (settling (program name arguments)).run.run task
        let status := match outcome with
          | .ok status => status
          | .error _ => .killed 9
        .ok (finished ends input.size status task.world, task.world.tree directory)

end TypeStub.Tool
