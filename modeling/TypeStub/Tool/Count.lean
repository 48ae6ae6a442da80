import TypeStub.Tool.Copy

/-!
Contract: the program that counts.

Owns: `wc`, which counts the lines, words and bytes of its sources and finds the width of
the longest line. The names of the sources can stand in a file.
-/

namespace TypeStub.Tool

/-! ## Counts -/

/-- The number of words, where `inWord` says that one has begun. A word begins with a
graphic character, and only white space ends it. -/
def wordCount (count : Nat) (inWord : Bool) : ByteText → Nat
  | [] => count
  | c :: rest =>
      if isSpace c then wordCount count false rest
      else if inWord || !isGraphic c then wordCount count inWord rest
      else wordCount (count + 1) true rest

/-- The greatest width of a line, given that of the lines before and the place in the
current one. -/
def widest (greatest place : Nat) : ByteText → Nat
  | [] => max greatest place
  | c :: rest =>
      if c = '\n' ∨ c = '\r' ∨ c = '\x0C' then widest (max greatest place) 0 rest
      else if c = '\t' then widest greatest ((place / 8 + 1) * 8) rest
      else if c = ' ' || isGraphic c then widest greatest (place + 1) rest
      else widest greatest place rest

structure Counts where
  lines : Nat
  words : Nat
  bytes : Nat
  widest : Nat

def Counts.none : Counts :=
  ⟨0, 0, 0, 0⟩

def Counts.ofText (text : ByteText) : Counts :=
  ⟨text.count '\n', wordCount 0 false text, text.length, Tool.widest 0 0 text⟩

/-- The counts of several texts together. -/
def Counts.add (left right : Counts) : Counts :=
  ⟨left.lines + right.lines, left.words + right.words, left.bytes + right.bytes,
    max left.widest right.widest⟩

/-! ## Arguments -/

def wcOptions : OptionTable where
  flags := "clLmw".toList
  valued := []
  names :=
    [("bytes", 'c'), ("chars", 'm'), ("lines", 'l'), ("words", 'w'), ("max-line-length", 'L'),
     ("files0-from", 'F')]
  valuedNames := ['F']
  permutes := true

/-- The numbers that are shown of the counts, in order. -/
def Counts.shown (given : Given) (counts : Counts) : List Nat :=
  let every := !"lwmcL".toList.any given.has
  (if every || given.has 'l' then [counts.lines] else []) ++
    (if every || given.has 'w' then [counts.words] else []) ++
    (if given.has 'm' then [counts.bytes] else []) ++
    (if every || given.has 'c' then [counts.bytes] else []) ++
    (if given.has 'L' then [counts.widest] else [])

/-- How many numbers are shown. -/
def kindCount (given : Given) : Nat :=
  (Counts.none.shown given).length

def countRow (places : Nat) (numbers : List Nat) (name : ByteText) : ByteText :=
  [' '].intercalate (numbers.map (column places)) ++ name ++ ['\n']

/-! ## The program -/

/-- What is known of a source before it is counted. -/
inductive SourceSize where
  | known (bytes : Nat)
  | unknown
  | missing

def sourceSize (operand : ByteText) : Job SourceSize := do
  let task ← get
  let node? ←
    if isInput operand then
      pure ((← opened? 0).bind fun opened => task.world.node? opened.node)
    else pure (task.world.status task.process false operand).toOption
  match node? with
  | some (.file bytes) => return .known bytes.size
  | some (.program _) => return .known programBytes.length
  | some _ => return .unknown
  | none => return .missing

/-- The width of the columns: that of the sum of all sizes, and more if a size is not known. -/
def countPlaces (sizes : List SourceSize) : Nat :=
  let sum := total (sizes.map fun
    | .known bytes => bytes
    | _ => 0)
  let least := if sizes.any (· matches .unknown) then 7 else 1
  max least (decimalText sum).length

def putRow (row : ByteText) : Job Unit := do
  put row
  flush

/-- Count what is left of an open source; the answer is none if it could not be read to its
end. -/
def countOpened (name label : ByteText) (descriptor : Nat) : Job (Counts × Bool) := do
  let (text, fault) ← readRest 16384 descriptor greatestReads []
  match fault with
  | none => return (.ofText text, true)
  | some cause =>
      grumble name (label ++ ": ".toList ++ cause.reason.toList)
      return (.ofText text, false)

/-- Count a source and put out its row; the answer has the counts and whether all went well.
The input can have no name. -/
def countSource (name : ByteText) (row : Counts → ByteText → Job Unit)
    (operand : Option ByteText) : Job (Counts × Bool) := do
  let label := (operand.map fun operand => ' ' :: shownRow operand).getD []
  match operand.filter (!isInput ·) with
  | none =>
      let problem := match operand with
        | none => spelled "standard input".toList
        | some operand => shown operand
      let (counts, isWhole) ← countOpened name problem 0
      row counts label
      return (counts, isWhole)
  | some path =>
      match ← openFile .reading path with
      | .error cause =>
          grumble name (shown path ++ ": ".toList ++ cause.reason.toList)
          return (.none, false)
      | .ok descriptor =>
          let (counts, isWhole) ← countOpened name (shown path) descriptor
          row counts label
          close descriptor
          return (counts, isWhole)
where
  /-- The name of a source in a row: with quotes if it goes over several lines. -/
  shownRow (operand : ByteText) : ByteText :=
    if operand.contains '\n' then shown operand else operand

/-- Say what is wrong with the name at a place among the operands or in a file of names; true if
nothing is. -/
def acceptName (name : ByteText) (list : Option ByteText) (operand : ByteText) (place : Nat) :
    Job Bool := do
  if operand.isEmpty then
    let front := (list.map fun list => shown list ++ ':' :: decimalText place ++ ": ".toList).getD []
    grumble name (front ++ "invalid zero-length file name".toList)
    return false
  else if list.any isInput && isInput operand then
    grumble name ("when reading file names from stdin, no file name of '-' allowed".toList)
    return false
  else return true

/-- The names that stand in a file, each with its end. -/
def listedNames (name list : ByteText) : Job (List ByteText × Bool) := do
  match ← openSource list with
  | .error cause =>
      grumble name ("cannot open ".toList ++ enclosed list ++ " for reading: ".toList ++
        cause.reason.toList)
      throw (.exited 1)
  | .ok descriptor =>
      let (text, fault) ← readRest 16384 descriptor greatestReads []
      fault.forM fun cause =>
        grumble name (shown list ++ ": read error: ".toList ++ cause.reason.toList)
      let pieces := endedPieces (Char.ofNat 0) text
      return (pieces.map fun piece => piece.filter (· ≠ Char.ofNat 0), fault.isNone)

structure CountPlan where
  /-- The names of the sources; the input has none if no operand says so. -/
  names : List (Option ByteText)
  list : Option ByteText
  isListed : Bool
  /-- All names are known before the first source is counted. -/
  isKnown : Bool

/-- The sources that the arguments ask for. -/
def countPlan (name : ByteText) (given : Given) : Job CountPlan := do
  match given.value? 'F', given.operands with
  | some _, surplus :: _ =>
      pointToHelp name ("extra operand ".toList ++ spelled surplus ++
        "\nfile operands cannot be combined with --files0-from".toList)
      throw (.exited 1)
  | some list, [] =>
      let size ← sourceSize list
      let (names, isListed) ← listedNames name list
      return ⟨names.map some, some list, isListed, size matches .known _⟩
  | none, [] => return ⟨[none], none, true, true⟩
  | none, operands => return ⟨operands.map some, none, true, true⟩

/-- Count the sources of a plan; the answer has the counts of all together and whether all
went well. -/
def CountPlan.count (plan : CountPlan) (name : ByteText) (row : Counts → ByteText → Job Unit) :
    Job (Counts × Bool) := do
  let step (sum : Counts × Bool × Nat) (operand : Option ByteText) : Job (Counts × Bool × Nat) := do
    let (sum, isWhole, place) := sum
    let isAccepted ← match operand with
      | some operand => acceptName name plan.list operand place
      | none => pure true
    let (counts, isCounted) ←
      if isAccepted then countSource name row operand else pure (.none, false)
    return (sum.add counts, isWhole && isCounted, place + 1)
  let (sum, isWhole, _) ← plan.names.foldlM step (.none, true, 1)
  return (sum, isWhole && plan.isListed)

def CountPlan.takesInput (plan : CountPlan) : Bool :=
  plan.list.any isInput || plan.names.any fun operand => (operand.map isInput).getD true

/-- Count the sources, and all together if there are several. -/
def wc : Program := fun name arguments => do
  let given ← givenTo wcOptions name arguments
  let plan ← countPlan name given
  let isBare : Bool := !plan.isKnown || (plan.names.length ≤ 1 && kindCount given == 1)
  let sizes ← if isBare then pure [] else plan.names.mapM fun operand => sourceSize (operand.getD ['-'])
  let places := countPlaces sizes
  let row (counts : Counts) (label : ByteText) : Job Unit :=
    putRow (countRow places (counts.shown given) label)
  let (sum, isWhole) ← plan.count name row
  if 1 < plan.names.length then putRow (countRow places (sum.shown given) " total".toList)
  if plan.takesInput && (← opened? 0).isNone then
    grumble name "-: Bad file descriptor".toList
    return 1
  else
    match (← get).held.fault with
    | none => return if isWhole then 0 else 1
    | some cause =>
        say (name ++ ": write error".toList ++
          (if cause == .noSpace then [] else ": ".toList ++ cause.reason.toList))
        return 1

end TypeStub.Tool
