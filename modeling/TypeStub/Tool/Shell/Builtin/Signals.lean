import TypeStub.Tool.Shell.Machine

/-!
Contract: the commands for signals and for processes in the background.

Owns:
- the names of signals, and `receive`, which lets the script get one;
- `kill` and `trap`;
- `wait` and what else is asked of processes in the background.
-/

namespace TypeStub.Tool.Shell

/-! ## Signals -/

/-- The name of a signal. Those that have none are called by their numbers, and those that
programs can use for anything by the distance from the nearer end of their range. -/
def signalText (signal : Nat) : ByteText :=
  let name : String :=
    if signal = 16 ∨ signal = 32 ∨ signal = 33 then toString signal
    else if signal = 34 then "RTMIN"
    else if 34 < signal ∧ signal < 50 then "RTMIN+" ++ toString (signal - 34)
    else if 50 ≤ signal ∧ signal < 64 then "RTMAX-" ++ toString (64 - signal)
    else if signal = 64 then "RTMAX"
    else (ExitStatus.signalNames[signal - 1]?).getD (toString signal)
  name.toList

/-- The number of a signal from its number or its name. -/
def signal? (text : ByteText) : Option Nat :=
  match decimal? text with
  | some number => if number ≤ 64 then some number else none
  | none =>
      (List.range 65).find? fun signal =>
        signal != 0 && signalText signal == text.map Char.toUpper

/-- What an end by a signal is called, unless it is silent. -/
def signalWords (signal : Nat) : Option String :=
  match signal with
  | 1 => some "Hangup"
  | 3 => some "Quit"
  | 4 => some "Illegal instruction"
  | 5 => some "Trace/breakpoint trap"
  | 6 => some "Aborted"
  | 7 => some "Bus error"
  | 8 => some "Floating point exception"
  | 9 => some "Killed"
  | 10 => some "User defined signal 1"
  | 11 => some "Segmentation fault"
  | 12 => some "User defined signal 2"
  | 14 => some "Alarm clock"
  | 15 => some "Terminated"
  | 16 => some "Stack fault"
  | 24 => some "CPU time limit exceeded"
  | 25 => some "File size limit exceeded"
  | 26 => some "Virtual timer expired"
  | 27 => some "Profiling timer expired"
  | 29 => some "I/O possible"
  | 30 => some "Power failure"
  | 31 => some "Bad system call"
  | _ => if 34 ≤ signal then some ("Real-time signal " ++ toString (signal - 34)) else none

/-- Say how a process has ended if a signal has ended it. -/
def tellStatus (status : ExitStatus) : Running Unit := do
  match status with
  | .exited _ => return ()
  | .killed signal => (signalWords signal).forM fun words => say words.toList

/-- The signals that do nothing unless something is done about them. -/
def isHarmless (signal : Nat) : Bool :=
  [0, 17, 18, 23, 28].contains signal

/-- The script gets a signal. What is to be done about it waits for the end of the command. -/
def receive (signal : Nat) : Running Unit := do
  let state ← get
  match (state.outerTraps.getD state.traps).lookup signal with
  | some action =>
      if signal = 9 then throw (.killed signal)
      else if action.isEmpty then return ()
      else modify fun state => { state with pending := state.pending ++ [signal] }
  | none => if isHarmless signal then return () else throw (.killed signal)

/-! ## Processes in the background -/

/-- Complain about a process in the background that does not exist. -/
def refusePlace {α : Type} (text : ByteText) : Running α :=
  abort <| match text with
    | ['%'] | ['%', '%'] | ['%', '+'] => "No current job".toList
    | ['%', '-'] => "No previous job".toList
    | _ => "No such job: ".toList ++ text

/-- Send a signal to processes, of which only that of the script still runs. -/
def send (signal : Nat) (processes : List ByteText) : Running Nat := do
  let step (code : Nat) (text : ByteText) : Running Nat := do
    if text.head? = some '%' then refusePlace text
    else
      let process ← count (if text.head? = some '-' then text.tail else text)
      if process = ownProcess ∨ process = 0 then
        receive signal
        return code
      else
        complain "No such process\n".toList
        return 1
  processes.foldlM step 0

/-- How signals are sent, for complaints. -/
def killUsage : ByteText :=
  "Usage: kill [-s sigspec | -signum | -sigspec] [pid | job]... or\nkill -l [exitstatus]".toList

/-- Send a signal that the arguments name. -/
def kill : Builtin := fun _ _ arguments => do
  let usage : Running Nat := abort killUsage
  let sendAll (signal : Nat) (processes : List ByteText) : Running Nat :=
    if processes.isEmpty then usage else send signal processes
  let direct : Option Nat :=
    match arguments with
    | ('-' :: name) :: _ => signal? name
    | _ => none
  match direct with
  | some signal => sendAll signal arguments.tail
  | none => do
      let read ← letters "ls:" arguments
      let named ← (read.letters.filter fun (letter, _) => letter == 's').mapM fun (_, name) =>
        match signal? name with
        | some signal => return signal
        | none => abort ("invalid signal number or name: ".toList ++ name)
      let isListing : Bool := read.letters.any fun (letter, _) => letter == 'l'
      match isListing, read.rest with
      | false, processes => sendAll (named.getLastD 15) processes
      | true, [] => putText ('0' :: '\n' :: (List.range 64).flatMap fun signal => row (signal + 1))
      | true, text :: _ =>
          if named.isEmpty then
            let number ← count text
            let signal := if 128 < number then number - 128 else number
            if 0 < signal ∧ signal ≤ 64 then putText (row signal)
            else abort ("invalid signal number or exit status: ".toList ++ text)
          else usage
where
  /-- The name of a signal in a line of its own. -/
  row (signal : Nat) : ByteText :=
    signalText signal ++ ['\n']

/-- Wait for processes in the background, which have all ended. -/
def wait : Builtin := fun _ _ arguments => do
  let step (_ : Nat) (text : ByteText) : Running Nat := do
    if text.head? = some '%' then refusePlace text
    else
      let process ← count text
      return ((← get).companions.lookup process).getD 127
  (← letters "" arguments).rest.foldlM step 0

/-- Refuse to let a process in the background be the one in front. -/
def resume : Builtin := fun _ _ arguments =>
  refusePlace (arguments.headD ['%'])

/-! ## Traps -/

def trapNumber? (text : ByteText) : Option Nat :=
  if text.map Char.toUpper = "EXIT".toList then some 0 else signal? text

/-- Set what is done on signals, up to one that does not exist. -/
def setTraps (action : ByteText) : List ByteText → Running Nat
  | [] => return 0
  | name :: rest => do
      match trapNumber? name with
      | none =>
          say ("trap: ".toList ++ name ++ ": bad trap".toList)
          return 1
      | some signal =>
          modify fun state =>
            let traps := dropKey signal state.traps
            { state with traps := if action = ['-'] then traps else (signal, action) :: traps }
          editProcess fun process =>
            let ignored := process.ignored.filter (· ≠ signal)
            { process with ignored := if action.isEmpty then signal :: ignored else ignored }
          setTraps action rest

/-- Set what is done on signals. -/
def trap : Builtin := fun _ _ arguments => do
  let arguments := (← letters "" arguments).rest
  match arguments with
  | [] =>
      let traps := (← get).traps.mergeSort fun a b => a.1 ≤ b.1
      putText (traps.flatMap fun (signal, action) =>
        "trap -- ".toList ++ requoted action ++ [' '] ++
          (if signal = 0 then "EXIT".toList else signalText signal) ++ ['\n'])
  | action :: names =>
      let (action, names) :=
        if names.isEmpty ∨ (decimal? action).isSome then (['-'], arguments) else (action, names)
      setTraps action names

end TypeStub.Tool.Shell
