import TypeStub.Tool.Shell.Builtin.Control
import TypeStub.Tool.Shell.Builtin.Directory
import TypeStub.Tool.Shell.Builtin.Input
import TypeStub.Tool.Shell.Builtin.Names
import TypeStub.Tool.Shell.Builtin.Signals
import TypeStub.Tool.Shell.Condition

/-!
Contract: the commands that scripts have of their own.

Owns:
- the commands for conditions;
- `builtin?`, the commands by their names.

Does not own: the programs of scripts (`TypeStub.Tool.Shell.Search`).
-/

namespace TypeStub.Tool.Shell

/-! ## Conditions -/

def hasSize : Node → Bool
  | .file bytes => !bytes.isEmpty
  | .directory _ _ | .program _ => true
  | _ => false

/-- What is known about files. -/
def fileTests (task : Task) : FileTests where
  holds operator name :=
    match operator, task.world.status task.process (operator == 'h' || operator == 'L') name with
    | _, .error _ => false
    | 'd', .ok (.directory _ _) | 'd', .ok .descriptors => true
    | 'x', .ok (.directory _ _) | 'x', .ok .descriptors | 'x', .ok (.program _) => true
    | 'f', .ok (.file _) | 'f', .ok (.program _) => true
    | 'c', .ok (.device _) | 'p', .ok (.pipe _) | 'h', .ok (.link _) | 'L', .ok (.link _) => true
    | 's', .ok node => hasSize node
    | _, .ok _ => "erwOG".toList.contains operator
  same left right :=
    match task.world.find task.process left, task.world.find task.process right with
    | .ok one, .ok other => one == other
    | _, _ => false

def judging (arguments : List ByteText) : Running Nat := do
  match judge (fileTests (← task)) arguments with
  | .ok value => return if value then 0 else 1
  | .error fault => abort fault.message

def test : Builtin := fun _ _ arguments =>
  judging arguments

/-- The condition in the arguments up to a closing bracket. -/
def bracket : Builtin := fun _ _ arguments =>
  if arguments.getLast? = some [']'] then judging arguments.dropLast
  else abort "missing ]".toList

/-! ## The table -/

/-- The times that the script and its processes have taken. -/
def timesText : ByteText :=
  "0m0.000000s 0m0.000000s\n0m0.000000s 0m0.000000s\n".toList

/-- The commands that do not need to know of others. -/
def plainBuiltin? (name : String) : Option Builtin :=
  match name with
  | ":" | "true" => some (idle 0)
  | "false" => some (idle 1)
  | "." => some source
  | "[" => some bracket
  | "alias" => some setAliases
  | "bg" | "fg" => some resume
  | "break" => some (interrupting .leave)
  | "cd" | "chdir" => some changeDirectory
  | "continue" => some (interrupting .again)
  | "echo" => some (printing echo)
  | "eval" => some eval
  | "exec" => some exec
  | "exit" => some exit
  | "export" => some (marking "export" ({ · with exported := true }) Variable.exported)
  | "getopts" => some nextOption
  | "kill" => some kill
  | "local" => some localize
  | "printf" => some (printing printf)
  | "pwd" => some currentDirectory
  | "read" => some read
  | "readonly" => some (marking "readonly" ({ · with fixed := true }) Variable.fixed)
  | "return" => some back
  | "set" => some setOptions
  | "shift" => some shift
  | "test" => some test
  | "times" => some fun _ _ _ => putText timesText
  | "trap" => some trap
  | "umask" => some changeMask
  | "unalias" => some dropAliases
  | "unset" => some unset
  | "wait" => some wait
  | _ => none

/-- The names of commands that need to know of others. -/
def knowing : List String :=
  ["command", "type"]

def isBuiltin (name : ByteText) : Bool :=
  (plainBuiltin? (String.ofList name)).isSome || knowing.contains (String.ofList name)

def builtin? (name : ByteText) : Option Builtin :=
  match String.ofList name with
  | "command" => some (command isBuiltin)
  | "type" => some (type isBuiltin)
  | text => plainBuiltin? text

end TypeStub.Tool.Shell
