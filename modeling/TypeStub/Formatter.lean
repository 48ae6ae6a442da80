import TypeStub.FileTree
import TypeStub.Formatter.Failure
import TypeStub.Text.Blank
import TypeStub.Text.Substitute

/-!
Contract: what a formatter command makes of a text.

Owns:
- `Launcher`, the way to run a program, with what is known after one has ended;
- `format`, the text that a command gives for a text, or why it gives none.

Does not own:
- the programs (`TypeStub.Tool.Toolbox`), which only come in as a launcher;
- failures of the system around a program that runs: an input that cannot be connected, an end
  that cannot be waited for, a writer of the input that breaks down. A launcher answers for the
  start of a program and for how much of its input was taken.
-/

namespace TypeStub

/-- What is known after a program has ended. -/
structure FinishedProcess where
  status : ExitStatus
  stdout : ByteArray
  stderr : ByteArray
  /-- Whether the program took all of its input. -/
  taken : Except OsCause Unit

/-- The way to run a program with arguments on an input among the files of a tree; the answer
also has the tree that it leaves. -/
abbrev Launcher :=
  (tree : FileTree) → (program : String) → (arguments : List String) → (input : ByteArray) →
    Except OsCause (FinishedProcess × FileTree)

namespace Formatter

/-- What a command's parts write for the name of the file that is formatted. -/
def filenameMark : String :=
  "\x7bfilename\x7d"

/-- A command with the name of the file in its place. -/
def named (filename : String) (command : List String) : List String :=
  command.map (Text.substitute filenameMark filename)

/-- The text that a program has written. A program without success gives none, and what it
said on the way is the reason; nor does one that left some of its input. -/
def collect (program : String) (process : FinishedProcess) : Except FormatterFailure String :=
  if process.status.isSuccess then
    match process.taken with
    | .error cause => .error (.notWritten program cause)
    | .ok () =>
        match Utf8.decode process.stdout with
        | .error defect => .error (.notText program defect)
        | .ok text => .ok text
  else
    let said := String.ofList (Text.trim (Utf8.decodeLossy process.stderr).toList)
    .error (.unsuccessful program process.status said)

/-- The text that a command makes of `code`, which is to be written to the file
`filename`, with the tree that the command leaves. -/
def format (launch : Launcher) (command : List String) (code filename : String)
    (tree : FileTree) : Except FormatterFailure String × FileTree :=
  match named filename command with
  | [] => (.error .emptyCommand, tree)
  | program :: arguments =>
      match launch tree program arguments code.toUTF8 with
      | .error cause => (.error (.notStarted program cause), tree)
      | .ok (process, tree) => (collect program process, tree)

end Formatter

end TypeStub
