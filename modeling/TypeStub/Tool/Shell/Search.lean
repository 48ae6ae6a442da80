import TypeStub.Tool.Shell.State

/-!
Contract: the programs that scripts name.

Owns:
- `searchProgram`, which looks for a program along the directories of a list;
- `runProgram`, which runs one as a process of its own.

A name with a slash is a path. Any other name is looked for in the directories one after the
other.
-/

namespace TypeStub.Tool.Shell

abbrev Programs :=
  (name : ByteText) → Option Program

def usualPath : ByteText :=
  "/usr/local/sbin:/usr/local/bin:/usr/sbin:/usr/bin:/sbin:/bin".toList

/-- The paths on which a list of directories has a name. -/
def candidates (list name : ByteText) : List ByteText :=
  (list.splitOn ':').map fun directory =>
    if directory.isEmpty then name else directory ++ '/' :: name

structure FoundProgram where
  path : ByteText
  name : ByteText

def isMissing : OsCause → Bool
  | .notFound | .notDirectory => true
  | _ => false

/-- The first program on some paths, or why there is none. -/
def firstProgram (world : World) (process : Process) (cause : OsCause) :
    List ByteText → Except OsCause FoundProgram
  | [] => .error cause
  | path :: rest =>
      match world.program process path with
      | .ok name => .ok ⟨path, name⟩
      | .error other =>
          firstProgram world process (if isMissing other then cause else other) rest

/-- Look for a program in the directories of a list; there is nothing without a list. -/
def searchProgram (list : Option ByteText) (name : ByteText) :
    Running (Except OsCause FoundProgram) := do
  let task ← task
  let paths := (list.map fun list => candidates list name).getD []
  return firstProgram task.world task.process .notFound paths

def searchList : Running (Option ByteText) := do
  return (← get).value? "PATH".toList

/-- The wording of why a program cannot be run. -/
def reasonNotRun (cause : OsCause) : ByteText :=
  if isMissing cause then "not found".toList else cause.reason.toList

/-- The code of a script when a program cannot be run. -/
def codeNotRun (cause : OsCause) : Nat :=
  match cause with
  | .notFound | .notDirectory | .tooManyLinks | .nameTooLong => 127
  | _ => 126

def isPath (name : ByteText) : Bool :=
  name.contains '/'

/-- The program that a name stands for, with a complaint if there is none. -/
def resolveProgram (list : Option ByteText) (name : ByteText) :
    Running (Except OsCause FoundProgram) := do
  let task ← task
  let found ← if isPath name then
      pure ((task.world.program task.process name).map (⟨name, ·⟩))
    else searchProgram list name
  match found with
  | .ok program => return .ok program
  | .error cause =>
      complain (name ++ ": ".toList ++ reasonNotRun cause)
      return .error cause

/-- The process of a program that a script starts. -/
def State.processOf (state : State) (process : Process) : Process :=
  { process with
    environment := state.environment
    descriptors := process.descriptors.filter fun (number, _) => number ≤ greatestDescriptor }

def runProgram (programs : Programs) (list : Option ByteText) (name : ByteText)
    (arguments : List ByteText) : Running ExitStatus := do
  match ← resolveProgram list name with
  | .error cause => return .exited (if isPath name then codeNotRun cause else 127)
  | .ok found =>
      match programs found.name with
      | none => return .exited 126
      | some program =>
          let state ← get
          Tool.runProgram program name arguments state.processOf

end TypeStub.Tool.Shell
