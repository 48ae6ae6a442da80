import TypeStub.Tool.System.Access
import TypeStub.Tool.System.Quoting

/-!
Contract: what programs put out and say.

Owns:
- `put` and `flush`, the output of a program, which is written in blocks;
- `say`, a complaint, and the forms of complaints;
- `ending`, the end of a program with what it has put out.
-/

namespace TypeStub.Tool

/-- How many bytes a program holds before it writes them. -/
def outputBlock : Nat :=
  4096

def flush : Job Unit := do
  let held := (← get).held
  if held.size = 0 then return ()
  else
    modify fun task => { task with held := { held with pieces := [], size := 0 } }
    match ← write 1 held.pieces.reverse.flatten with
    | .ok () => return ()
    | .error cause =>
        modify fun task =>
          { task with held := { task.held with fault := task.held.fault.or (some cause) } }

/-- Put out a text. Whole blocks are written. -/
def put (text : ByteText) : Job Unit := do
  modify fun task =>
    { task with
      held :=
        { task.held with
          pieces := text :: task.held.pieces
          size := task.held.size + text.length } }
  let held := (← get).held
  if held.size ≤ outputBlock then return ()
  else
    let all := held.pieces.reverse.flatten
    let whole := held.size / outputBlock * outputBlock
    modify fun task =>
      { task with held := { task.held with pieces := [all.take whole], size := whole } }
    flush
    modify fun task =>
      { task with
        held := { task.held with pieces := [all.drop whole], size := held.size - whole } }

/-- Write a line of complaint, as far as there is somebody to read it. -/
def say (text : ByteText) : Job Unit := do
  let _ ← write 2 (text ++ ['\n'])

/-- Complain in the name of the program, behind what it has put out. -/
def grumble (program problem : ByteText) : Job Unit := do
  flush
  say (program ++ ": ".toList ++ problem)

/-- Complain about a use of the program that means nothing. -/
def pointToHelp (program problem : ByteText) : Job Unit :=
  grumble program
    (problem ++ "\nTry '".toList ++ program ++ " --help' for more information.".toList)

/-- Write what is put out at the end of a program; that this cannot be done is a failure. -/
def concluding (program : ByteText) (body : Job Nat) : Job Nat := do
  let code ← body
  flush
  match (← get).held.fault with
  | none => return code
  | some cause =>
      say (program ++ ": write error: ".toList ++ cause.reason.toList)
      return 1

end TypeStub.Tool
