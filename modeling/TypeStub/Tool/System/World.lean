import TypeStub.OsCause
import TypeStub.Tool

/-!
Contract: what programs find around them while they run.

Owns:
- `World`, the nodes of a file system and the files that are open;
- `Process`, what belongs to one program that runs;
- `Job`, a step of a program, which can end it.

Nodes and open files are known by their numbers. An open file is shared by all that inherit
it, and so is the place up to which it is read or written. The bytes on the way from one
program to another stand in a pipe. Programs of a pipeline run one after the other, so a pipe
says how many bytes it takes until its reader has to run.
-/

namespace TypeStub.Tool

/-- A device that stands in the file system under a name. -/
inductive Device where
  | null
  /-- Bytes with number zero are read without end. -/
  | zero
  | full
  /-- It cannot be opened without a terminal. -/
  | terminal
deriving DecidableEq, Repr

/-- Bytes on the way from one program to another. -/
structure Pipe where
  bytes : ByteArray
  /-- How many of the bytes are taken. -/
  taken : Nat
  /-- How many bytes come in altogether at most. -/
  bound : Option Nat
  /-- More can come when the program that writes goes on. -/
  isOpen : Bool
  /-- Nobody takes what would go beyond the bound. -/
  isLast : Bool

/-- What a name of the file system stands for. -/
inductive Node where
  | directory (above : Nat) (entries : List (ByteText × Nat))
  | file (bytes : ByteArray)
  | link (target : ByteText)
  | program (name : ByteText)
  | device (kind : Device)
  /-- The directory that holds the open files of the program that looks. -/
  | descriptors
  | pipe (pipe : Pipe)

structure Opened where
  node : Nat
  offset : Nat
  reads : Bool
  writes : Bool
  /-- All that is written goes to the end. -/
  appends : Bool

/-- The file system and the open files. -/
structure World where
  nodes : Array Node
  opened : Array Opened

abbrev Environment :=
  List (ByteText × ByteText)

/-- What belongs to one program that runs. -/
structure Process where
  /-- The open files by the numbers that the program has for them. -/
  descriptors : List (Nat × Nat)
  directory : Nat
  /-- The signals that do nothing. -/
  ignored : List Nat
  /-- The rights that files it makes do not have. -/
  mask : Nat
  environment : Environment

/-- What a program has put out and not written yet. -/
structure Held where
  /-- The pieces, the latest first. -/
  pieces : List ByteText
  size : Nat
  /-- Why something could not be written. -/
  fault : Option OsCause

/-- Nothing is put out yet. -/
def Held.none : Held :=
  ⟨[], 0, .none⟩

def usualMask : Nat :=
  2 * 8 + 2

structure Task where
  world : World
  process : Process
  held : Held

/-- How a program ends before its last step. -/
inductive Ending where
  | exited (code : Nat)
  | killed (signal : Nat)
  /-- It writes to a pipe that takes no more until its reader has run. -/
  | stalled (pipe : Nat)
  /-- It reads from a pipe whose writer has to go on first. -/
  | starved (pipe : Nat)
deriving DecidableEq, Repr

abbrev Job := ExceptT Ending (StateM Task)

/-- A program: what it does with the name it is called by and its arguments, up to its exit
code. -/
abbrev Program :=
  (name : ByteText) → (arguments : List ByteText) → Job Nat

/-! ## Lists of entries -/

def putKey {α : Type} [DecidableEq α] {β : Type} (key : α) (value : β) : List (α × β) → List (α × β)
  | [] => [(key, value)]
  | (other, old) :: rest =>
      if other = key then (key, value) :: rest else (other, old) :: putKey key value rest

def dropKey {α : Type} [DecidableEq α] {β : Type} (key : α) (entries : List (α × β)) :
    List (α × β) :=
  entries.filter (·.1 ≠ key)

/-! ## Parts of a world -/

namespace World

def node? (world : World) (number : Nat) : Option Node :=
  world.nodes[number]?

/-- The entries of a directory; nothing for any other node. -/
def entries (world : World) (number : Nat) : List (ByteText × Nat) :=
  match world.node? number with
  | some (.directory _ entries) => entries
  | _ => []

def putNode (world : World) (number : Nat) (node : Node) : World :=
  { world with nodes := world.nodes.setIfInBounds number node }

/-- One more node, with its number. -/
def addNode (world : World) (node : Node) : World × Nat :=
  ({ world with nodes := world.nodes.push node }, world.nodes.size)

/-- Let a name of a directory stand for a node. -/
def putEntry (world : World) (directory : Nat) (name : ByteText) (number : Nat) : World :=
  { world with
    nodes := world.nodes.modify directory fun
      | .directory above entries => .directory above (putKey name number entries)
      | node => node }

/-- One more node under a name of a directory, with its number. -/
def addEntry (world : World) (directory : Nat) (name : ByteText) (node : Node) : World × Nat :=
  let (world, number) := world.addNode node
  (world.putEntry directory name number, number)

end World

/-! ## Steps -/

/-- Run something as a process of its own, which differs from the one that starts it. What
belongs to that one is back afterwards, also if the other one ends early. -/
def spawn {α : Type} (change : Process → Process) (body : Job α) : Job α := do
  let outer ← get
  set { outer with process := change outer.process, held := .none }
  let back : Job Unit := modify fun task => { outer with world := task.world }
  let answer ← tryCatch body fun ending => do
    back
    throw ending
  back
  return answer

/-- Change the open file of a descriptor; nothing happens if it is closed. -/
def editOpened (descriptor : Nat) (edit : Opened → Opened) : Job Unit :=
  modify fun task =>
    match task.process.descriptors.lookup descriptor with
    | none => task
    | some index =>
        { task with world := { task.world with opened := task.world.opened.modify index edit } }

def editPipe (number : Nat) (edit : Pipe → Pipe) : Job Unit :=
  modify fun task =>
    { task with
      world :=
        { task.world with
          nodes := task.world.nodes.modify number fun
            | .pipe pipe => .pipe (edit pipe)
            | node => node } }

def opened? (descriptor : Nat) : Job (Option Opened) := do
  let task ← get
  return (task.process.descriptors.lookup descriptor).bind fun index => task.world.opened[index]?

end TypeStub.Tool
