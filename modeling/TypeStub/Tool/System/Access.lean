import TypeStub.Tool.System.Path

/-!
Contract: how programs reach bytes.

Owns:
- `openPath`, with the ways of opening a file;
- reading and writing through a descriptor;
- descriptors that stand for the same open file, and pipes.

A read from an empty pipe starves and a write to a full one stalls, so that the other end runs
first.
-/

namespace TypeStub.Tool

/-! ## Descriptors -/

/-- The least number that stands for no open file. -/
def freeDescriptor (least : Nat) (descriptors : List (Nat × Nat)) : Nat :=
  ((List.range (descriptors.length + 1)).map (least + ·)).find?
    (fun number => (descriptors.lookup number).isNone) |>.getD least

/-- Let a descriptor stand for an open file. -/
def putDescriptor (descriptor index : Nat) : Job Unit :=
  modify fun task =>
    { task with
      process :=
        { task.process with descriptors := putKey descriptor index task.process.descriptors } }

def close (descriptor : Nat) : Job Unit :=
  modify fun task =>
    { task with
      process := { task.process with descriptors := dropKey descriptor task.process.descriptors } }

/-- One more open file, with its number. -/
def addOpened (opened : Opened) : Job Nat := do
  let task ← get
  set { task with world := { task.world with opened := task.world.opened.push opened } }
  return task.world.opened.size

/-! ## Opening -/

structure OpenStyle where
  reads : Bool
  writes : Bool
  appends : Bool
  creates : Bool
  /-- What the file holds is dropped. -/
  empties : Bool
  isNew : Bool
deriving DecidableEq, Repr

namespace OpenStyle

def reading : OpenStyle :=
  ⟨true, false, false, false, false, false⟩

def writing : OpenStyle :=
  ⟨false, true, false, true, true, false⟩

def appending : OpenStyle :=
  ⟨false, true, true, true, false, false⟩

def updating : OpenStyle :=
  ⟨true, true, false, true, false, false⟩

def making : OpenStyle :=
  ⟨false, true, false, true, false, true⟩

end OpenStyle

/-- Why a node cannot be opened, if it cannot. -/
def Node.refusal? (style : OpenStyle) : Node → Option OsCause
  | .directory _ _ | .descriptors =>
      if style.writes || style.creates then some .isDirectory else none
  | .device .terminal => some .noDevice
  | .link _ => some .tooManyLinks
  | .program _ => if style.writes then some (.other "Text file busy") else none
  | _ => none

/-- Open the end of a path; the answer is the number of the open file. -/
def openFound (style : OpenStyle) (path : ByteText) (found : Found) : Job (Except OsCause Nat) := do
  let task ← get
  let opened (number : Nat) : Opened := ⟨number, 0, style.reads, style.writes, style.appends⟩
  match found.node?.bind fun number => (task.world.node? number).map (number, ·) with
  | some (number, node) =>
      if style.isNew then return .error .alreadyExists
      else
        match node.refusal? style with
        | some cause => return .error cause
        | none =>
            match node with
            | .file _ =>
                if style.empties then
                  set { task with world := task.world.putNode number (.file .empty) }
            | _ => pure ()
            return .ok (← addOpened (opened number))
  | none =>
      if !style.creates then return .error .notFound
      else if path.getLast? = some '/' then return .error .isDirectory
      else
        match task.world.node? found.directory with
        | some (.directory _ _) =>
            let (world, number) := task.world.addEntry found.directory found.name (.file .empty)
            set { task with world }
            return .ok (← addOpened (opened number))
        | _ => return .error .notFound

/-- Open the file of a path; the answer is the number of the open file. -/
def openPath (style : OpenStyle) (path : ByteText) : Job (Except OsCause Nat) := do
  let task ← get
  match task.world.locate task.process false path with
  | .error cause => return .error cause
  | .ok found => openFound style path found

/-- Open the file of a path under the least descriptor that is free. -/
def openFile (style : OpenStyle) (path : ByteText) : Job (Except OsCause Nat) := do
  match ← openPath style path with
  | .error cause => return .error cause
  | .ok index =>
      let descriptor := freeDescriptor 0 (← get).process.descriptors
      putDescriptor descriptor index
      return .ok descriptor

/-! ## Reading -/

/-- What a program is when it is read as a file. -/
def programBytes : ByteText :=
  '\x7F' :: "ELF\x02\x01\x01".toList

/-- Read at most so many bytes through a descriptor. There are none at the end. -/
def readSome (descriptor most : Nat) : Job (Except OsCause ByteText) := do
  match ← opened? descriptor with
  | none => return .error .badDescriptor
  | some opened =>
      if !opened.reads then return .error .badDescriptor
      else
        let pass (bytes : ByteText) : Job (Except OsCause ByteText) := do
          editOpened descriptor fun opened => { opened with offset := opened.offset + bytes.length }
          return .ok bytes
        match (← get).world.node? opened.node with
        | some (.file bytes) =>
            pass (ofBytes (bytes.extract opened.offset (opened.offset + most)))
        | some (.pipe pipe) =>
            if pipe.bytes.size ≤ pipe.taken then
              if pipe.isOpen then throw (.starved opened.node) else return .ok []
            else
              let bytes := ofBytes (pipe.bytes.extract pipe.taken (pipe.taken + most))
              editPipe opened.node fun pipe => { pipe with taken := pipe.taken + bytes.length }
              return .ok bytes
        | some (.device .zero) | some (.device .full) =>
            return .ok (List.replicate most (Char.ofNat 0))
        | some (.program _) => pass ((programBytes.drop opened.offset).take most)
        | some (.directory _ _) | some .descriptors => return .error .isDirectory
        | _ => return .ok []

/-- Give back the last bytes that were read, where the file allows it. -/
def giveBack (descriptor count : Nat) : Job Unit :=
  editOpened descriptor fun opened => { opened with offset := opened.offset - count }

/-- Read up to the end, at most so many times; the answer has what was read before a failure,
and that. -/
def readRest (block descriptor : Nat) :
    (times : Nat) → (pieces : List ByteText) → Job (ByteText × Option OsCause)
  | 0, pieces => return (pieces.reverse.flatten, none)
  | times + 1, pieces => do
      match ← readSome descriptor block with
      | .error cause => return (pieces.reverse.flatten, some cause)
      | .ok [] => return (pieces.reverse.flatten, none)
      | .ok piece => readRest block descriptor times (piece :: pieces)

/-- How often a program that reads up to the end reads. -/
def greatestReads : Nat :=
  Nat.pow 2 40

/-! ## Writing -/

/-- The bytes of a file after `text` is written to it from a place on. -/
def overwritten (bytes : ByteArray) (offset : Nat) (text : ByteText) : ByteArray :=
  if bytes.size = offset then bytes ++ toBytes text
  else
    let gap := toBytes (List.replicate (offset - bytes.size) (Char.ofNat 0))
    bytes.extract 0 offset ++ gap ++ toBytes text ++
      bytes.extract (offset + text.length) bytes.size

def writePipe (number : Nat) (text : ByteText) : Job (Except OsCause Unit) := do
  match (← get).world.node? number with
  | some (.pipe pipe) =>
      let room := match pipe.bound with
        | none => text.length
        | some bound => bound - pipe.bytes.size
      editPipe number fun pipe => { pipe with bytes := pipe.bytes ++ toBytes (text.take room) }
      if text.length ≤ room then return .ok ()
      else if pipe.isLast then
        if (← get).process.ignored.contains 13 then return .error .brokenPipe
        else throw (.killed 13)
      else throw (.stalled number)
  | _ => return .ok ()

def write (descriptor : Nat) (text : ByteText) : Job (Except OsCause Unit) := do
  match ← opened? descriptor with
  | none => return .error .badDescriptor
  | some opened =>
      if !opened.writes then return .error .badDescriptor
      else
        match (← get).world.node? opened.node with
        | some (.file bytes) =>
            let offset := if opened.appends then bytes.size else opened.offset
            modify fun task =>
              { task with
                world :=
                  { task.world with
                    nodes := task.world.nodes.modify opened.node fun
                      | .file bytes => .file (overwritten bytes offset text)
                      | node => node } }
            editOpened descriptor fun opened => { opened with offset := offset + text.length }
            return .ok ()
        | some (.pipe _) => writePipe opened.node text
        | some (.device .full) => return .error .noSpace
        | _ => return .ok ()

/-! ## Pipes -/

/-- A pipe that holds bytes and gets no more. -/
def Pipe.filled (bytes : ByteArray) : Pipe :=
  ⟨bytes, 0, none, false, false⟩

/-- One more pipe, with its number. -/
def addPipe (pipe : Pipe) : Job Nat := do
  let task ← get
  let (world, number) := task.world.addNode (.pipe pipe)
  set { task with world }
  return number

def pipe? (number : Nat) : Job (Option Pipe) := do
  match (← get).world.node? number with
  | some (.pipe pipe) => return some pipe
  | _ => return none

/-- The end of a pipe from which bytes are taken. -/
def readingEnd (number : Nat) : Opened :=
  ⟨number, 0, true, false, false⟩

/-- The end of a pipe to which bytes are written. -/
def writingEnd (number : Nat) : Opened :=
  ⟨number, 0, false, true, false⟩

end TypeStub.Tool
