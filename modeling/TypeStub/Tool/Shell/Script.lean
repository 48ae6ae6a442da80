import TypeStub.Tool.Shell.Run

/-!
Contract: how scripts run.

Owns:
- `Feed`, where the lines of a script come from, and `nextCommand`, which takes one command of
  it;
- `runFeed`, which runs the commands one after the other;
- `machine`, which lets commands run others up to a depth.

A script that goes too deep is killed, as one whose stack is used up. The commands of a script
are read when those before them have run, so that all can read the same input.
-/

namespace TypeStub.Tool.Shell

/-- Where the lines of a script come from. -/
structure Feed where
  source : Source
  /-- The descriptor through which more of it is read, as long as there is more. -/
  descriptor : Option Nat
  /-- The lines are shown when they are read, if that is wanted. -/
  isFile : Bool

def Feed.ofText (text : ByteText) : Feed :=
  ⟨.ofText text 1, none, false⟩

/-- The script is read through a descriptor. -/
def Feed.ofDescriptor (descriptor : Nat) : Feed :=
  ⟨.ofText [] 1, some descriptor, true⟩

/-- How much of a script is read at a time. -/
def scriptBlock : Nat :=
  8192

def Feed.more (feed : Feed) (descriptor : Nat) : Job Feed := do
  match ← readSome descriptor scriptBlock with
  | .ok (c :: text) =>
      let added := (c :: text).filter (· ≠ '\x00')
      return { feed with source := { feed.source with rest := feed.source.rest ++ added } }
  | _ => return { feed with descriptor := none }

/-- The end of the last line stands behind what is read. -/
def Source.isWhole (source : Source) : Bool :=
  !source.isCut && source.last matches .lineEnd

def showLines (before after : Source) : Running Unit := do
  if (← get).has 'v' then
    let used := before.rest.take (before.rest.length - after.rest.length)
    let behind := if used.getLast? = some '\n' then [] else after.rest.takeWhile (· ≠ '\n')
    let _ ← write 2 (used ++ behind)

/-- Take the next command of a script, which is read in at most so many pieces; nothing at its
end. -/
def nextCommand : (steps : Nat) → Feed → Running (Except SyntaxFault (Option Command) × Feed)
  | 0, feed => return (.ok none, feed)
  | steps + 1, feed => do
      let before := { feed.source with aliases := (← get).aliases }
      let (outcome, after) := readCommand.run.run before
      let isWhole : Bool := outcome matches .ok (some _) && after.isWhole
      match feed.descriptor.filter fun _ => after.rest.isEmpty && !isWhole with
      | some descriptor => nextCommand steps (← feed.more descriptor)
      | none =>
          if feed.isFile then showLines before after
          return (outcome, { feed with source := after })

/-- Fail because a text is no script. -/
def refuseText (fault : SyntaxFault) : Running Nat := do
  putLine fault.line
  abort ("Syntax error: ".toList ++ fault.problem.toList)

/-- Run the commands of a script, of which there are at most `steps`. -/
def runFeed (machine : Machine) (tested : Bool) : (steps : Nat) → Feed → (code : Nat) →
    Running Nat
  | 0, _, code => return code
  | steps + 1, feed, code => do
      match ← nextCommand greatestReads feed with
      | (.error fault, _) => refuseText fault
      | (.ok none, _) => return code
      | (.ok (some .nothing), feed) => runFeed machine tested steps feed code
      | (.ok (some command), feed) =>
          runFeed machine tested steps feed (← machine.run tested command)

/-- How many commands a script runs at most. -/
def greatestCommands : Nat :=
  Nat.pow 2 40

def runText (machine : Machine) (tested : Bool) (text : ByteText) : Running Nat :=
  runFeed machine tested greatestCommands (.ofText text) 0

def runLines (machine : Machine) (tested : Bool) (descriptor : Nat) : Running Nat :=
  runFeed machine tested greatestCommands (.ofDescriptor descriptor) 0

/-- The machine that runs commands in commands up to a depth. -/
def machine (programs : Programs) : (depth : Nat) → Machine
  | 0 =>
      let killed : Running Nat := (throw (.killed 11) : Job Nat)
      { programs
        run := fun _ _ => killed
        runText := fun _ _ => killed
        runLines := fun _ _ => killed
        runFields := fun _ _ _ _ => killed }
  | depth + 1 =>
      { programs
        run := fun tested command => runCommand (machine programs depth) tested command
        runText := fun tested text => runText (machine programs depth) tested text
        runLines := fun tested descriptor => runLines (machine programs depth) tested descriptor
        runFields := fun functions tested list fields =>
          dispatch (machine programs depth) functions tested list fields }

end TypeStub.Tool.Shell
