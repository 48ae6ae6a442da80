import TypeStub.Tool.Shell.Reader
import TypeStub.Tool.System.Execute

/-!
Contract: the state of a script that runs.

Owns:
- `Variable` and `State`;
- `Running`, a step of a run, with the ways in which one is interrupted;
- variables and complaints;
- subshells, those in the background among them.

A subshell runs with a copy of the state as a process of its own, so that only the world keeps
its changes. One in the background runs at once to its end.
-/

namespace TypeStub.Tool.Shell

/-- A variable of a script. It can be known without a value. -/
structure Variable where
  value : Option ByteText
  exported : Bool
  fixed : Bool

inductive Interruption where
  | exit (code : Nat)
  /-- The script or one of its commands is used in a wrong way. -/
  | failed
  | back (code : Nat)
  /-- So many loops end. -/
  | leave (loops : Nat)
  /-- The innermost of so many loops ends, and the others go on with their next round. -/
  | again (loops : Nat)
  | killed (signal : Nat)

/-- The place of the command that reads options: the argument that it reads next, and how many
letters of the one before are read, if some are left. -/
structure OptionPlace where
  next : Nat
  letters : Option Nat
deriving DecidableEq, Repr

structure State where
  name : ByteText
  arguments : List ByteText
  bindings : List (ByteText × Variable)
  functions : List (ByteText × Command)
  aliases : Aliases
  /-- The letters of the options that are set. -/
  options : List Char
  /-- What to do on signals, by their numbers; zero is the end of the script. -/
  traps : List (Nat × ByteText)
  /-- In a subshell: what the script around all subshells does on signals. -/
  outerTraps : Option (List (Nat × ByteText))
  /-- The signals that came and are not answered yet. -/
  pending : List Nat
  /-- The status from before the answer to a signal, while that runs. -/
  interrupted : Option Nat
  status : Nat
  line : Nat
  /-- The name of the command of scripts that runs, for complaints. -/
  command : ByteText
  /-- How many loops run around the command. -/
  loops : Nat
  /-- What local variables hide, the latest first, for each function that runs. -/
  hidden : List (List (ByteText × Option Variable))
  /-- The processes that ran in the background by their numbers, with their codes, the latest
  first. -/
  companions : List (Nat × Nat)
  /-- The code of the last substitution of a command. -/
  substituted : Option Nat
  place : OptionPlace
  /-- The path of the current directory, as the script has reached it. -/
  directory : ByteText

abbrev Running := ExceptT Interruption (StateT State Job)

/-! ## The world -/

def task : Running Task :=
  (get : Job Task)

def editProcess (edit : Process → Process) : Running Unit :=
  (modify fun task => { task with process := edit task.process } : Job Unit)

/-- The open files of the process by its numbers for them. -/
def descriptors : Running (List (Nat × Nat)) := do
  return (← task).process.descriptors

/-- The open files with greater numbers than this are those of the script alone. -/
def greatestDescriptor : Nat :=
  9

/-- Put the open files of the process. -/
def putDescriptors (descriptors : List (Nat × Nat)) : Running Unit :=
  editProcess fun process => { process with descriptors }

/-! ## Variables -/

namespace State

def value? (state : State) (name : ByteText) : Option ByteText :=
  (state.bindings.lookup name).bind Variable.value

def has (state : State) (option : Char) : Bool :=
  state.options.contains option

/-- The exported variables that have values. -/
def environment (state : State) : Environment :=
  state.bindings.filterMap fun (name, held) =>
    if held.exported then held.value.map (name, ·) else none

end State

/-- The characters that divide fields. -/
def separators : Running ByteText := do
  return ((← get).value? "IFS".toList).getD [' ', '\t', '\n']

/-! ## Complaints -/

/-- Write a complaint of the script, or of the one of its commands that runs. -/
def complain (problem : ByteText) : Running Unit := do
  let state ← get
  let label := if state.command.isEmpty then [] else state.command ++ ": ".toList
  say (state.name ++ ": ".toList ++ decimalText state.line ++ ": ".toList ++ label ++ problem)

/-- The code of a script or command that is used in a wrong way. -/
def misuse : Nat :=
  2

def abort {α : Type} (problem : ByteText) : Running α := do
  complain problem
  throw .failed

def illegalNumber (text : ByteText) : ByteText :=
  "Illegal number: ".toList ++ text

/-- The greatest number that commands take. -/
def greatestCount : Nat :=
  2147483647

/-- The number that an argument of a command writes. -/
def count? (text : ByteText) : Option Nat :=
  let body := text.dropWhile isSpace
  let digits := if body.head? = some '+' then body.tail else body
  (decimal? ((digits.reverse.dropWhile isSpace).reverse)).filter (· ≤ greatestCount)

/-- The number in an argument of a command. -/
def count (text : ByteText) : Running Nat :=
  match count? text with
  | some number => return number
  | none => abort (illegalNumber text)

/-- What else changes with the value of a variable. -/
def noticeValue (name value : ByteText) : Running Unit := do
  if name = "OPTIND".toList then
    let next ← count value
    modify fun state => { state with place := ⟨max 1 next, none⟩ }

def assign (name value : ByteText) : Running Unit := do
  let state ← get
  let old := (state.bindings.lookup name).getD ⟨none, false, false⟩
  if old.fixed then abort (name ++ ": is read only".toList)
  else
    let exported := old.exported || state.has 'a'
    set { state with bindings := putKey name ⟨some value, exported, false⟩ state.bindings }
    noticeValue name value

/-! ## Parts of a run -/

/-- Run something and put a part of the state back afterwards, however it ends. -/
def restoring {α : Type} (restore : State → State) (body : Running α) : Running α := do
  let answer ← tryCatch body fun interruption => do
    modify restore
    throw interruption
  modify restore
  return answer

/-! ## Subshells -/

structure Departure where
  code : Nat
  pending : List Nat
  /-- The signal that kills the script around. -/
  killed : Option Nat

/-- The code that stands for an end by a signal. -/
def codeOfSignal (signal : Nat) : Nat :=
  128 + signal

/-- The code that an end is for the script around it. -/
def codeOf : ExitStatus → Nat
  | .exited code => code
  | .killed signal => codeOfSignal signal

def State.forSubshell (outer : State) : State :=
  { outer with
    traps := outer.traps.filter fun (_, action) => action.isEmpty
    outerTraps := some (outer.outerTraps.getD outer.traps)
    pending := []
    loops := 0 }

/-- Run a subshell of a script to its end, as a process that differs from that of the script. -/
def subshell (outer : State) (change : Process → Process) (body : Running Nat) : Job Departure :=
  let run : Job Departure := do
    let (outcome, inner) ← body.run.run outer.forSubshell
    return match outcome with
      | .ok code => ⟨code, inner.pending, none⟩
      | .error (.killed signal) => ⟨codeOfSignal signal, inner.pending, some signal⟩
      | .error _ => ⟨misuse, inner.pending, none⟩
  spawn change <| tryCatch run fun
    | .killed signal => return ⟨codeOfSignal signal, [], none⟩
    | other => throw other

/-- Take notice of how a subshell was left. -/
def Departure.notice (departure : Departure) : Running Nat := do
  modify fun state => { state with pending := state.pending ++ departure.pending }
  match departure.killed with
  | some signal => throw (.killed signal)
  | none => return departure.code

def inSubshell (body : Running Nat) : Running Nat := do
  (← subshell (← get) id body).notice

/-- Run a subshell with its output going to a pipe of its own; the answer is what it writes. -/
def capture (body : Running Nat) : Running (ByteText × Nat) := do
  let pipe ← addPipe ⟨.empty, 0, none, true, false⟩
  let opened ← addOpened (writingEnd pipe)
  let code ← inSubshell do
    putDescriptor 1 opened
    body
  let written := ((← pipe? pipe).map Pipe.bytes).getD .empty
  editPipe pipe fun pipe => { pipe with bytes := .empty }
  return (ofBytes written, code)

/-- The number of the process that runs the script. -/
def ownProcess : Nat :=
  4711

/-- Run a subshell in the background, where it has no input. -/
def inBackground (body : Running Nat) : Running Unit := do
  let state ← get
  let departure ← subshell state id do
    let input : Except OsCause Nat ← openPath .reading "/dev/null".toList
    input.toOption.forM fun opened => putDescriptor 0 opened
    body
  let number := (state.companions.head?.map (·.1)).getD ownProcess + 1
  set { state with companions := (number, departure.code) :: state.companions }

end TypeStub.Tool.Shell
