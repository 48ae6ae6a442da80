import TypeStub.OsCause
import TypeStub.Text.Utf8

/-!
Contract: why a formatter gives no text.

Owns:
- `ExitStatus`, how a process ended;
- `FormatterFailure`, with its wording.
-/

namespace TypeStub

/-- How a process ended. -/
inductive ExitStatus where
  | exited (code : Nat)
  | killed (signal : Nat)
deriving DecidableEq, Repr

namespace ExitStatus

/-- The process says that it did its work. -/
def isSuccess (status : ExitStatus) : Bool :=
  status == .exited 0

/-- The names of signals from number 1 on, without what all of them begin with. -/
def signalNames : List String :=
  ["HUP", "INT", "QUIT", "ILL", "TRAP", "ABRT", "BUS", "FPE", "KILL", "USR1", "SEGV", "USR2",
   "PIPE", "ALRM", "TERM", "STKFLT", "CHLD", "CONT", "STOP", "TSTP", "TTIN", "TTOU", "URG",
   "XCPU", "XFSZ", "VTALRM", "PROF", "WINCH", "IO", "PWR", "SYS"]

def signalName (signal : Nat) : String :=
  match signal with
  | 0 => ""
  | number + 1 => (signalNames[number]?.map fun name => " (SIG" ++ name ++ ")").getD ""

def message : ExitStatus → String
  | .exited code => "exit status: " ++ toString code
  | .killed signal => "signal: " ++ toString signal ++ signalName signal

end ExitStatus

/-- Why a formatter gives no text. -/
inductive FormatterFailure where
  | emptyCommand
  | notStarted (program : String) (cause : OsCause)
  /-- The program ended without success and said why. -/
  | unsuccessful (program : String) (status : ExitStatus) (stderr : String)
  /-- The program did not take all of its input. -/
  | notWritten (program : String) (cause : OsCause)
  | notText (program : String) (defect : Utf8.Defect)
deriving DecidableEq, Repr

def FormatterFailure.message : FormatterFailure → String
  | .emptyCommand => "formatter command is empty"
  | .notStarted program cause => "could not run " ++ program ++ ": " ++ cause.message
  | .unsuccessful program status stderr =>
      program ++ " exited with " ++ status.message ++ ": " ++ stderr
  | .notWritten program cause => "could not write to " ++ program ++ ": " ++ cause.message
  | .notText program defect => program ++ " output is not UTF-8: " ++ defect.message

end TypeStub
