import TypeStub.Tool.Shell.Machine

/-!
Contract: the commands that change what is run next.

Owns: the ends of scripts, functions and loops, the commands that run texts and files in the
script itself, and the one that puts a program in its place.
-/

namespace TypeStub.Tool.Shell

def codeArgument (current : Nat) (arguments : List ByteText) : Running Nat :=
  match arguments with
  | [] => return current
  | text :: _ => count text

def exit : Builtin := fun _ _ arguments => do
  let state ← get
  let code ← codeArgument (state.interrupted.getD state.status) arguments
  throw (.exit (code % 256))

/-- End the function or the file that runs. -/
def back : Builtin := fun _ _ arguments => do
  throw (.back (← codeArgument (← get).status arguments))

/-- Interrupt loops, if some run. -/
def interrupting (interruption : Nat → Interruption) : Builtin := fun _ _ arguments => do
  let text := arguments.headD ['1']
  let number ← count text
  if number = 0 then abort (illegalNumber text)
  else
    let loops := (← get).loops
    modify fun state => { state with status := 0 }
    if loops = 0 then return 0 else throw (interruption (min number loops))

def eval : Builtin := fun machine tested arguments => do
  machine.runText tested ([' '].intercalate arguments)

/-- The path of a file that is to be run: the name itself if it is a path, and otherwise the
first file of that name in the directories of programs. -/
def scriptPath? (name : ByteText) : Running (Option ByteText) := do
  if isPath name then return some name
  else
    let task ← task
    let list := (← searchList).getD []
    return (candidates list name).find? fun path =>
      match task.world.status task.process false path with
      | .ok (.file _) | .ok (.program _) => true
      | _ => false

/-- Run the lines of a file. -/
def source : Builtin := fun machine tested arguments => do
  match (← letters "" arguments).rest with
  | [] => return 0
  | name :: _ =>
      match ← scriptPath? name with
      | none => abort (name ++ ": not found".toList)
      | some path =>
          match ← openApart path with
          | .error problem => abort problem
          | .ok descriptor =>
              let finish : Running Unit := close descriptor
              let code ← tryCatch (machine.runLines tested descriptor) fun
                | .back code => return code
                | other => do
                    finish
                    throw other
              finish
              return code

/-- Put a program in the place of the script. -/
def exec : Builtin := fun machine _ arguments => do
  match arguments with
  | [] => return 0
  | name :: arguments =>
      match ← resolveProgram (← searchList) name with
      | .error cause => throw (.exit (codeNotRun cause))
      | .ok found =>
          modify fun state => { state with traps := state.traps.filter (·.2.isEmpty) }
          match machine.programs found.name with
          | none => throw (.exit 126)
          | some program =>
              let state ← get
              match ← Tool.runProgram program name arguments state.processOf with
              | .exited code => throw (.exit code)
              | .killed signal => throw (.killed signal)

end TypeStub.Tool.Shell
