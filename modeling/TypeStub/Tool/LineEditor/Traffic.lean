import TypeStub.Tool.Copy
import TypeStub.Tool.LineEditor.Substitution

/-!
Contract: what the line editor reads and writes while it runs.

Owns:
- `Editor`, the state of a run, and `Editing`, a step of it;
- the outputs of a run, each of which may owe the end of its last line;
- the sources of a run, which are read line by line.

A line that has no end is written without one; it gets one as soon as more is written. The
files that a program writes are opened before the first line is read, and what is written to
them is held like the output itself.
-/

namespace TypeStub.Tool.LineEditor

/-- A text, and whether the line that it came from has an end. -/
structure Space where
  text : ByteText
  ended : Bool
deriving DecidableEq, Repr

structure LineFile where
  name : ByteText
  descriptor : Nat
  /-- What is read and not yet taken. -/
  ahead : ByteText
  isOver : Bool

/-- Where the bytes of an output go. -/
inductive Sink where
  | out
  | err
  | descriptor (number : Nat)
deriving DecidableEq, Repr

structure Output where
  name : ByteText
  sink : Sink
  /-- The last line has no end yet. -/
  owesEnd : Bool
  /-- What is put out and not yet written to a file, in pieces with the latest first. -/
  pieces : List ByteText
  size : Nat

inductive RangeState where
  | idle
  | upTo (number : Nat)
  /-- The range goes on up to its last address. -/
  | unbounded
  /-- The range began at the number of a line, and does not begin again. -/
  | closed
deriving DecidableEq, Repr

/-- What stays the same during a run. -/
structure Setting where
  /-- The name by which the editor is called, for complaints. -/
  name : ByteText
  /-- Run a script; the answer is what it puts out. -/
  evaluate : (script : ByteText) → Job ByteText
  quiet : Bool
  /-- The width in which texts are listed. -/
  width : Nat
  lineEnd : Char
  separate : Bool
  /-- Each source is replaced by what comes of it. A text with stars for its name is the name
  of what it was before, if that is kept. -/
  inPlace : Option ByteText
  /-- Nothing is held, neither of sources nor of outputs. -/
  hasty : Bool
  strict : Bool
  /-- Each step is shown. -/
  shows : Bool
  /-- Where the last piece of the program comes from, for complaints. -/
  origin : Origin
  lastLine : Nat

inductive Addition where
  | text (text : ByteText)
  | file (name : ByteText)

structure Replacement where
  directory : Nat
  name : ByteText
  node : Nat

structure Editor where
  space : Space
  held : Space
  /-- The spare room for a text is marked as one with an end of its line. -/
  spare : Bool
  number : Nat
  replaced : Bool
  ranges : Array RangeState
  expression : Option Expression
  later : List ByteText
  source : Option LineFile
  sourceName : ByteText
  /-- The next source begins a text of its own. -/
  startsAnew : Bool
  /-- A source could not be opened. -/
  hasMissed : Bool
  replacement : Option Replacement
  outputs : Array Output
  /-- The output that edited lines go to. -/
  main : Nat
  /-- What is written after the text, the latest first. -/
  added : List Addition
  files : List (ByteText × LineFile)
  /-- How many blocks are open where steps are shown. A jump out of a block leaves it open. -/
  level : Int

/-- A step of a run. It can end the run with a code. -/
abbrev Editing := ExceptT Nat (StateT Editor Job)

def outside {α : Type} (body : Job α) : Editing α :=
  ExceptT.lift (StateT.lift body)

/-- The code of a run that cannot go on. -/
def brokenCode : Nat :=
  4

/-- Complain that the run cannot go on, and end it. -/
def breakOff {α : Type} (setting : Setting) (problem : ByteText) : Editing α := do
  outside (say (setting.name ++ ": ".toList ++ problem))
  throw brokenCode

/-! ## Writing -/

def plainOutput : Nat :=
  0

def namedOutput : Nat :=
  1

def complaintOutput : Nat :=
  2

def refuseWriting {α : Type} (setting : Setting) (count : Nat) (name : ByteText) (cause : OsCause) :
    Editing α :=
  breakOff setting ("couldn't write ".toList ++ decimalText count ++
    (if count = 1 then " item to " else " items to ").toList ++ name ++ ": ".toList ++
    cause.reason.toList)

def flushOutput (index : Nat) : Editing (Option OsCause) := do
  match (← get).outputs[index]? with
  | none => return none
  | some output =>
      match output.sink with
      | .descriptor number =>
          if output.size = 0 then return none
          else
            modify fun editor =>
              { editor with
                outputs := editor.outputs.modify index ({ · with pieces := [], size := 0 }) }
            match ← outside (write number output.pieces.reverse.flatten) with
            | .ok () => return none
            | .error cause => return some cause
      | .out =>
          outside flush
          return (← outside get).held.fault
      | .err => return none

def putRaw (setting : Setting) (index : Nat) (bytes : ByteText) : Editing Unit := do
  match (← get).outputs[index]? with
  | none => return ()
  | some output =>
      match output.sink with
      | .out =>
          outside (Tool.put bytes)
          match (← outside get).held.fault with
          | some cause => refuseWriting setting bytes.length output.name cause
          | none => return ()
      | .err =>
          let _ ← outside (write 2 bytes)
          return ()
      | .descriptor _ =>
          modify fun editor =>
            { editor with
              outputs := editor.outputs.modify index fun output =>
                { output with
                  pieces := bytes :: output.pieces
                  size := output.size + bytes.length } }
          if outputBlock < output.size + bytes.length then
            (← flushOutput index).forM (refuseWriting setting bytes.length output.name)

/-- Write what an output holds if nothing is to be held. -/
def hurry (setting : Setting) (index : Nat) : Editing Unit := do
  if setting.hasty then
    let _ ← flushOutput index

/-- Change whether an output owes the end of a line. -/
def putOwed (index : Nat) (owesEnd : Bool) : Editing Unit :=
  modify fun editor =>
    { editor with outputs := editor.outputs.modify index ({ · with owesEnd }) }

/-- Write the end of the last line of an output if it is owed. -/
def payEnd (setting : Setting) (index : Nat) : Editing Unit := do
  if ((← get).outputs[index]?.map Output.owesEnd).getD false then
    putOwed index false
    putRaw setting index [setting.lineEnd]

def putBytesTo (setting : Setting) (index : Nat) (bytes : ByteText) : Editing Unit := do
  payEnd setting index
  putRaw setting index bytes
  hurry setting index

/-- Write bytes to the output of edited lines. -/
def putBytes (setting : Setting) (bytes : ByteText) : Editing Unit := do
  putBytesTo setting (← get).main bytes

/-- Write lines to the output of edited lines, where the last line feed is the end of a
line. -/
def putLines (setting : Setting) (text : ByteText) : Editing Unit :=
  putBytes setting (if text.getLast? = some '\n' then text.dropLast ++ [setting.lineEnd] else text)

/-- Write a line to an output. -/
def putSpaceTo (setting : Setting) (index : Nat) (space : Space) : Editing Unit := do
  payEnd setting index
  putRaw setting index (if space.ended then space.text ++ [setting.lineEnd] else space.text)
  putOwed index (!space.ended)
  hurry setting index

def Destination.index (destination : Destination) : Editing Nat := do
  match destination with
  | .out => return namedOutput
  | .err => return complaintOutput
  | .file name =>
      return ((← get).outputs.toList.findIdx? fun output =>
        output.name == name && output.sink matches .descriptor _).getD complaintOutput

def putSpace (setting : Setting) (destination : Destination) (space : Space) : Editing Unit := do
  putSpaceTo setting (← destination.index) space

/-- Write a line to the output of edited lines. -/
def putLine (setting : Setting) (space : Space) : Editing Unit := do
  putSpaceTo setting (← get).main space

def putText (setting : Setting) : Editing Unit := do
  putLine setting (← get).space

/-! ## Files -/

/-- How many bytes are read at a time. -/
def editorBlock : Nat :=
  4096

def LineFile.readBlock (setting : Setting) (file : LineFile) : Editing LineFile := do
  match ← outside (readSome file.descriptor (if setting.hasty then 1 else editorBlock)) with
  | .error cause =>
      breakOff setting ("read error on ".toList ++ file.name ++ ": ".toList ++ cause.reason.toList)
  | .ok [] => return { file with isOver := true }
  | .ok text => return { file with ahead := file.ahead ++ text }

/-- Take the next line of a file with its end, reading at most so many times; nothing if
there is none. `taken` are blocks without an end, the latest first. -/
def LineFile.takeLine (setting : Setting) (taken : List ByteText) (file : LineFile) :
    (times : Nat) → Editing (Option ByteText × LineFile)
  | 0 => return (none, file)
  | times + 1 => do
      let line := file.ahead.takeWhile (· ≠ setting.lineEnd)
      match file.ahead.drop line.length with
      | mark :: rest =>
          return (some ((line ++ [mark]) :: taken).reverse.flatten, { file with ahead := rest })
      | [] =>
          let taken := if line.isEmpty then taken else line :: taken
          let file := { file with ahead := [] }
          if file.isOver then
            return (if taken.isEmpty then none else some taken.reverse.flatten, file)
          else takeLine setting taken (← file.readBlock setting) times

def LineFile.isEmpty (setting : Setting) (file : LineFile) : Editing (Bool × LineFile) := do
  if !file.ahead.isEmpty then return (false, file)
  else if file.isOver then return (true, file)
  else
    let file ← file.readBlock setting
    return (file.ahead.isEmpty, file)

/-- Write the contents of a file, if there is one, with an action that writes bytes. -/
def putFile (setting : Setting) (put : ByteText → Editing Unit) (name : ByteText) : Editing Unit := do
  let descriptor ←
    if name = "/dev/stdin".toList && !setting.strict then pure (Except.ok 0)
    else outside (openFile .reading name)
  match descriptor with
  | .error _ => put []
  | .ok descriptor =>
      let (text, fault) ← outside (readRest editorBlock descriptor greatestReads [])
      put text
      fault.forM fun cause =>
        breakOff setting ("read error on ".toList ++ name ++ ": ".toList ++ cause.reason.toList)
      if descriptor ≠ 0 then outside (close descriptor)

/-- Write what was to be written after the text. -/
def putAdded (setting : Setting) : Editing Unit := do
  let editor ← get
  set { editor with added := [] }
  editor.added.reverse.forM fun
    | .text text => putBytes setting text
    | .file name => putFile setting (putBytes setting) name

/-! ## Sources -/

/-- Start to replace a source that is open. -/
def beginReplacement (setting : Setting) (name : ByteText) (descriptor : Nat) : Editing Unit := do
  let task ← outside get
  let opened ← outside (opened? descriptor)
  match opened.bind fun opened => task.world.node? opened.node, task.world.locate task.process false name with
  | some (.file _), .ok found =>
      let (world, node) := task.world.addNode (.file .empty)
      outside (set { task with world })
      let index ← outside (addOpened (writingEnd node))
      let target := freeDescriptor 0 task.process.descriptors
      outside (putDescriptor target index)
      modify fun editor =>
        { editor with
          replacement := some ⟨found.directory, found.name, node⟩
          outputs := editor.outputs.push ⟨name, .descriptor target, false, [], 0⟩
          main := editor.outputs.size }
  | _, _ => breakOff setting ("couldn't edit ".toList ++ name ++ ": not a regular file".toList)

def keptName (form name : ByteText) : ByteText :=
  form.flatMap fun c => if c = '*' then name else [c]

/-- Put what came of a source in its place. -/
def endReplacement (form : ByteText) : Editing Unit := do
  match (← get).replacement with
  | none => return ()
  | some replacement => do
      let index := (← get).main
      let _ ← flushOutput index
      match (← get).outputs[index]?.map Output.sink with
      | some (.descriptor number) => outside (close number)
      | _ => pure ()
      outside <| modify fun task =>
        let old := (task.world.entries replacement.directory).lookup replacement.name
        let world := match old with
          | some old =>
              if form = ['*'] then task.world
              else task.world.putEntry replacement.directory (keptName form replacement.name) old
          | none => task.world
        { task with world := world.putEntry replacement.directory replacement.name replacement.node }
      modify fun editor =>
        { editor with replacement := none, outputs := editor.outputs.pop, main := plainOutput }

def openNext (setting : Setting) (name : ByteText) : Editing Unit := do
  modify fun editor => { editor with sourceName := name }
  if isInput name && setting.inPlace.isNone then
    modify fun editor => { editor with source := some ⟨"stdin".toList, 0, [], false⟩ }
  else
    match ← outside (openFile .reading name) with
    | .error cause =>
        outside (say (setting.name ++ ": can't read ".toList ++ name ++ ": ".toList ++
          cause.reason.toList))
        modify fun editor => { editor with hasMissed := true }
    | .ok descriptor =>
        modify fun editor => { editor with source := some ⟨name, descriptor, [], false⟩ }
        if setting.inPlace.isSome then beginReplacement setting name descriptor

/-- Close the source that is open. What is not taken of it is given back. -/
def closeSource (setting : Setting) : Editing Unit := do
  match (← get).source with
  | none => return ()
  | some file =>
      outside (giveBack file.descriptor file.ahead.length)
      if file.descriptor ≠ 0 then outside (close file.descriptor)
      setting.inPlace.forM endReplacement
      modify fun editor => { editor with source := none, startsAnew := setting.separate }

/-- The text is the last one that there is: nothing of the source is left, and the sources
behind it hold nothing unless each is a text of its own. They are opened as far as that has to
be known. -/
def isLast (setting : Setting) : (sources : Nat) → Editing Bool
  | 0 => return true
  | sources + 1 => do
      let editor ← get
      let isOver ← match editor.source with
        | none => pure true
        | some file => do
            let (isOver, file) ← file.isEmpty setting
            modify fun editor => { editor with source := some file }
            pure isOver
      if !isOver then return false
      else if setting.separate then return true
      else
        match editor.later with
        | [] => return true
        | name :: later =>
            closeSource setting
            modify fun editor => { editor with later }
            openNext setting name
            isLast setting sources

/-- Nothing is left behind the text. -/
def atEnd (setting : Setting) : Editing Bool := do
  isLast setting ((← get).later.length + 1)

/-- Where the ranges of a program are before the first line: one that begins at line zero is
open. -/
def Program.ranges (program : Program) : Array RangeState :=
  program.commands.map fun command =>
    match command.selection with
    | .range (.line 0) _ => .unbounded
    | _ => .idle

/-- Begin a text of its own. -/
def startAnew (setting : Setting) (program : Program) : Editing Unit := do
  outside ((← get).files.forM fun (_, file) =>
    editOpened file.descriptor fun opened => { opened with offset := 0 })
  modify fun editor =>
    { editor with
      number := 0
      held := ⟨[], true⟩
      ranges := program.ranges
      startsAnew := false
      files := editor.files.map fun (name, file) => (name, { file with ahead := [], isOver := false }) }
  if !setting.strict then payEnd setting (← get).main

/-- The next line of the sources, of which so many are not open yet. -/
def nextLine (setting : Setting) (program : Program) : (sources : Nat) → Editing (Option ByteText)
  | 0 => return none
  | sources + 1 => do
      let line ← match (← get).source with
        | none => pure none
        | some file => do
            let (line, file) ← file.takeLine setting [] greatestReads
            modify fun editor => { editor with source := some file }
            pure line
      match line with
      | some line => return some line
      | none =>
          closeSource setting
          match (← get).later with
          | [] => return none
          | name :: later => do
              modify fun editor => { editor with later }
              if (← get).startsAnew then startAnew setting program
              openNext setting name
              nextLine setting program sources

/-- Take the next line, whose text `join` combines with the one before; false if there is
none. -/
def takeLine (setting : Setting) (program : Program)
    (join : ByteText → ByteText → ByteText) : Editing Bool := do
  putAdded setting
  modify fun editor => { editor with replaced := false }
  match ← nextLine setting program ((← get).later.length + 2) with
  | none => return false
  | some line => do
      let ended : Bool := line.getLast? == some setting.lineEnd
      let text := if ended then line.dropLast else line
      modify fun editor =>
        { editor with
          space := ⟨join editor.space.text text, ended⟩
          number := editor.number + 1 }
      return true

def takeFileLine (setting : Setting) (name : ByteText) : Editing (Option ByteText) := do
  match (← get).files.lookup name with
  | none => return none
  | some file =>
      let (line, file) ← file.takeLine setting [] greatestReads
      modify fun editor => { editor with files := putKey name file editor.files }
      return line

end TypeStub.Tool.LineEditor
