import TypeStub.Formatter.Failure
import TypeStub.Tool.System.Output

/-!
Contract: how a program is found and run to its end.

Owns:
- `World.program`, which finds the program of a path;
- `runProgram`, which runs a program as a process of its own.
-/

namespace TypeStub.Tool

/-- The name of the program that stands at the end of a path, or why it cannot be run. -/
def World.program (world : World) (process : Process) (path : ByteText) :
    Except OsCause ByteText := do
  match ← world.status process false path with
  | .program name => .ok name
  | _ => .error .permissionDenied

/-- Run something to its end. -/
def settling (body : Job Nat) : Job ExitStatus :=
  tryCatch (do let code ← body; flush; return .exited code) fun
    | .exited code => do
        flush
        return .exited code
    | .killed signal => return .killed signal
    | other => throw other

/-- Run a program as a process of its own, which differs from the one that starts it. -/
def runProgram (program : Program) (name : ByteText) (arguments : List ByteText)
    (change : Process → Process) : Job ExitStatus :=
  spawn change (settling (program name arguments))

end TypeStub.Tool
