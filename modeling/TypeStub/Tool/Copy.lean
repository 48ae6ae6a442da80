import TypeStub.Tool.Options

/-!
Contract: the programs that copy their input or leave it alone.

Owns:
- `succeed` and `fail`, which read nothing;
- the sources of a program, which are files or the input;
- `cat`, with its ways to number lines and to show what has no shape.

A copy is written as it is read, so that a reader of it need not wait for the end.
-/

namespace TypeStub.Tool

/-- Nothing is read, and the code is always the same. -/
def settled (code : Nat) : Program := fun name _ => do
  let ended ← concluding name (return 0)
  return max ended code

def succeed : Program :=
  settled 0

def fail : Program :=
  settled 1

/-! ## Sources -/

def isInput (operand : ByteText) : Bool :=
  operand == ['-']

/-- The sources that operands name; without operands it is the input. -/
def sourceNames (operands : List ByteText) : List ByteText :=
  if operands.isEmpty then [['-']] else operands

/-- Open a source; the answer is its descriptor. -/
def openSource (operand : ByteText) : Job (Except OsCause Nat) :=
  if isInput operand then return .ok 0 else openFile .reading operand

/-- Close a source, unless it is the input. -/
def closeSource (operand : ByteText) (descriptor : Nat) : Job Unit :=
  if isInput operand then return () else close descriptor

/-! ## Copies -/

structure CopyStyle where
  numbers : Bool
  skipsEmpty : Bool
  /-- Of empty lines in a row only one is copied. -/
  squeezes : Bool
  marksEnds : Bool
  marksTabs : Bool
  /-- Characters without a shape are spelled. -/
  spells : Bool
deriving DecidableEq, Repr

def spelling (c : Char) : ByteText :=
  let low (code : Nat) : ByteText :=
    if code < 32 then ['^', Char.ofNat (code + 64)]
    else if code = 127 then ['^', '?']
    else [Char.ofNat code]
  if c.toNat < 128 then low c.toNat else 'M' :: '-' :: low (c.toNat - 128)

structure CopyPlace where
  number : Nat
  /-- At the start of a line: how many empty lines stand before it, of which at most two
  count. -/
  atStart : Option Nat
  /-- A carriage return waits for what comes after it. -/
  holdsReturn : Bool

namespace CopyStyle

/-- A line with the next number begins. -/
def numbered (place : CopyPlace) : CopyPlace × ByteText :=
  ({ place with number := place.number + 1 }, column 6 (place.number + 1) ++ ['\t'])

def lineFeed (style : CopyStyle) (place : CopyPlace) : CopyPlace × ByteText :=
  let empty := (place.atStart.map (· + 1)).getD 0
  if 2 ≤ empty && style.squeezes then ({ place with atStart := some 2 }, [])
  else
    let (place, label) :=
      if 0 < empty && style.numbers && !style.skipsEmpty then numbered place else (place, [])
    let held := if place.holdsReturn then ['^', 'M'] else []
    ({ place with atStart := some (min empty 2), holdsReturn := false },
      label ++ held ++ if style.marksEnds then ['$', '\n'] else ['\n'])

/-- What is copied for a byte. A carriage return at the end of a line is spelled where ends
are marked. -/
def step (style : CopyStyle) (place : CopyPlace) (c : Char) : CopyPlace × ByteText :=
  if c = '\n' then style.lineFeed place
  else
    let held := if place.holdsReturn then ['\r'] else []
    let place := { place with holdsReturn := false }
    let (place, label) :=
      if place.atStart.isSome && style.numbers then numbered place else (place, [])
    let place := { place with atStart := none }
    if c = '\r' && style.marksEnds && !style.spells then
      ({ place with holdsReturn := true }, held ++ label)
    else
      let text : ByteText :=
        if c = '\t' then if style.marksTabs then ['^', 'I'] else ['\t']
        else if style.spells then spelling c
        else [c]
      (place, held ++ label ++ text)

/-- The copy of a text from a place on, behind what is copied before, with its latest byte
first. -/
def copyFrom (style : CopyStyle) (place : CopyPlace) (copied : ByteText) :
    ByteText → CopyPlace × ByteText
  | [] => (place, copied.reverse)
  | c :: rest =>
      let (place, text) := style.step place c
      copyFrom style place (text.reverse ++ copied) rest

def isPlain (style : CopyStyle) : Bool :=
  style == ⟨false, false, false, false, false, false⟩

def copy (style : CopyStyle) (place : CopyPlace) (text : ByteText) : CopyPlace × ByteText :=
  if style.isPlain then (place, text) else style.copyFrom place [] text

end CopyStyle

def CopyPlace.start : CopyPlace :=
  ⟨0, some 0, false⟩

def catOptions : OptionTable where
  flags := "AbeEnstTuv".toList
  valued := []
  names :=
    [("number-nonblank", 'b'), ("number", 'n'), ("squeeze-blank", 's'),
     ("show-nonprinting", 'v'), ("show-ends", 'E'), ("show-tabs", 'T'), ("show-all", 'A')]
  valuedNames := []
  permutes := true

def CopyStyle.ofOptions (given : Given) : CopyStyle where
  numbers := given.has 'n' || given.has 'b'
  skipsEmpty := given.has 'b'
  squeezes := given.has 's'
  marksEnds := given.has 'E' || given.has 'e' || given.has 'A'
  marksTabs := given.has 'T' || given.has 't' || given.has 'A'
  spells := given.has 'v' || given.has 'e' || given.has 't' || given.has 'A'

/-! ## The program -/

/-- How many bytes are copied at a time. -/
def copyBlock : Nat :=
  131072

/-- Write a part of a copy at once, or end the program. -/
def writeCopy (name text : ByteText) : Job Unit := do
  if text.isEmpty then return ()
  else
    match ← write 1 text with
    | .ok () => return ()
    | .error cause =>
        grumble name ("write error: ".toList ++ cause.reason.toList)
        throw (.exited 1)

/-- Copy what is left of a source; the answer is the place behind it and why it ended early. -/
def copySource (name : ByteText) (style : CopyStyle) (descriptor : Nat) :
    (times : Nat) → CopyPlace → Job (CopyPlace × Option OsCause)
  | 0, place => return (place, none)
  | times + 1, place => do
      match ← readSome descriptor copyBlock with
      | .error cause => return (place, some cause)
      | .ok [] => return (place, none)
      | .ok text =>
          let (place, copied) := style.copy place text
          writeCopy name copied
          copySource name style descriptor times place

/-- A file that is longer than what is read of it gets all that is written. -/
def feedsItself (descriptor : Nat) : Job Bool := do
  match ← opened? descriptor, ← opened? 1 with
  | some source, some target =>
      match (← get).world.node? source.node with
      | some (.file bytes) =>
          return source.node == target.node && decide (source.offset < bytes.size)
      | _ => return false
  | _, _ => return false

/-- Copy sources one after the other; the answer is the place behind them and whether all of
them could be read. -/
def copyAll (name : ByteText) (style : CopyStyle) (isWhole : Bool) (place : CopyPlace) :
    List ByteText → Job (CopyPlace × Bool)
  | [] => return (place, isWhole)
  | operand :: rest => do
      let refuse (problem : String) : Job Unit :=
        grumble name (shown operand ++ ": ".toList ++ problem.toList)
      match ← openSource operand with
      | .error cause =>
          refuse cause.reason
          copyAll name style false place rest
      | .ok descriptor =>
          if (← feedsItself descriptor) then
            refuse "input file is output file"
            closeSource operand descriptor
            copyAll name style false place rest
          else
            let (place, fault) ← copySource name style descriptor greatestReads place
            fault.forM fun cause => refuse cause.reason
            closeSource operand descriptor
            copyAll name style (isWhole && fault.isNone) place rest

/-- Copy the sources one after the other. -/
def cat : Program := fun name arguments => do
  let given ← givenTo catOptions name arguments
  let style := CopyStyle.ofOptions given
  let operands := sourceNames given.operands
  if (← opened? 1).isNone then
    grumble name "standard output: Bad file descriptor".toList
    return 1
  else
    let (place, isWhole) ← copyAll name style true .start operands
    if place.holdsReturn then writeCopy name ['\r']
    if operands.any isInput && (← opened? 0).isNone then
      grumble name "closing standard input: Bad file descriptor".toList
      return 1
    else return if isWhole then 0 else 1

end TypeStub.Tool
