import TypeStub.Tool.Shell.Script

/-!
Contract: the program that runs scripts.

Owns: `sh`, which takes a script as an argument, from a file or as its input.

Does not own: what commands do (`TypeStub.Tool.Shell.Run`), nor the programs that scripts can
name (`TypeStub.Tool.Toolbox`).
-/

namespace TypeStub.Tool

namespace Shell

def commandDepth : Nat :=
  20000

/-- The path of the directory in which a script starts. It is the one that the script is told,
if that is right. -/
def startDirectory (task : Task) : ByteText :=
  let process := task.process
  let told := (process.environment.lookup "PWD".toList).filter fun path =>
    path.head? == some '/' &&
      (task.world.findDirectory process path).toOption == some process.directory
  told.getD (task.world.pathOf process.directory)

def startVariables (task : Task) : List (ByteText × Variable) :=
  let given := task.process.environment.map fun (name, value) =>
    (name, Variable.mk (some value) true false)
  let usual : List (String × ByteText) :=
    [("IFS", " \t\n".toList), ("OPTIND", ['1']), ("PS1", "# ".toList), ("PS2", "> ".toList),
     ("PS4", "+ ".toList), ("PPID", decimalText (ownProcess - 1))]
  let bindings := usual.foldl (fun bindings (name, value) =>
    putKey name.toList ⟨some value, false, false⟩ bindings) given
  putKey "PWD".toList ⟨some (startDirectory task), true, false⟩ bindings

def startState (task : Task) (options : List Char) (name : ByteText) (arguments : List ByteText) :
    State where
  name
  arguments
  bindings := startVariables task
  functions := []
  aliases := []
  options
  traps := []
  outerTraps := none
  pending := []
  interrupted := none
  status := 0
  line := 0
  command := []
  loops := 0
  hidden := []
  companions := []
  substituted := none
  place := ⟨1, none⟩
  directory := startDirectory task

def runFrom (state : State) (body : Running Nat) : Job Nat := do
  let (outcome, _) ← body.run.run state
  match outcome with
  | .ok code => return code
  | .error (.killed signal) => throw (.killed signal)
  | .error _ => return misuse

/-- What a script that is started by a name does with its arguments. -/
def run (programs : Programs) (name : ByteText) (arguments : List ByteText) : Job Nat := do
  let machine := machine programs commandDepth
  let task ← get
  let start (options : List Char) (label : ByteText) (rest : List ByteText) (body : Running Nat) :
      Job Nat :=
    runFrom (startState task options label rest) do
      let options ← withoutJobs options
      modify fun state => { state with options, line := 1 }
      ending machine body
  let refuse (problem : ByteText) : Job Nat :=
    runFrom (startState task [] name []) (abort problem)
  match readOptions true [] arguments with
  | .error problem => refuse problem
  | .ok read =>
      let _ ← write 1 read.shown.flatten
      if read.takesText then
        match read.rest with
        | [] => refuse "-c requires an argument".toList
        | text :: rest =>
            start read.options (rest.headD name) rest.tail (runText machine false text)
      else
        match read.rest.filter fun _ => !read.options.contains 's' with
        | [] =>
            start (putOption true 's' read.options) name read.rest (runLines machine false 0)
        | file :: rest =>
            let (opened, _) ← (openApart file).run.run (startState task [] name [])
            match opened with
            | .ok (.ok descriptor) => start read.options file rest (runLines machine false descriptor)
            | .ok (.error problem) => refuse problem
            | .error _ => return misuse

end Shell

/-- Run a script that can name programs. -/
def sh (programs : Shell.Programs) : Program :=
  Shell.run programs

end TypeStub.Tool
