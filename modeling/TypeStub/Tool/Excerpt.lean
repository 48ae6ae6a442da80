import TypeStub.Tool.Copy

/-!
Contract: the programs that take one end of their input.

Owns: `head` and `tail`, with the amounts that they take.

Does not own: units of amounts, other ends of lines, titles that are asked for and sources that
are followed while they grow. The options for these are refused.

Of a file that allows it nothing is taken beyond what is needed, so that others can go on
there.
-/

namespace TypeStub.Tool

/-! ## Amounts -/

inductive AmountOrigin where
  | start
  | finish
deriving DecidableEq, Repr

def AmountOrigin.other : AmountOrigin → AmountOrigin
  | .start => .finish
  | .finish => .start

/-- A part of a text: so many of its lines, or of its bytes. -/
structure Amount where
  inLines : Bool
  origin : AmountOrigin
  count : Nat
deriving DecidableEq, Repr

/-- The length of the first lines of a text, given what is passed, and how many lines are
missing. -/
def linesLength (passed : Nat) : (count : Nat) → ByteText → Nat × Nat
  | 0, _ => (passed, 0)
  | count + 1, [] => (passed, count + 1)
  | count + 1, c :: rest =>
      linesLength (passed + 1) (if c = '\n' then count else count + 1) rest

/-- The length of a text without so much at its end. -/
def lengthBefore (inLines : Bool) (count : Nat) (text : ByteText) : Nat :=
  if inLines then total (((lineTexts text).reverse.drop count).map List.length)
  else text.length - count

/-! ## Arguments -/

def excerptOptions : OptionTable where
  flags := []
  valued := "cn".toList
  names := [("bytes", 'c'), ("lines", 'n')]
  valuedNames := []
  permutes := true

/-- Arguments where a number behind one of some signs comes first, in the form with a letter. -/
def expandCount (signs : List Char) : List ByteText → List ByteText
  | (sign :: digits) :: rest =>
      if signs.contains sign && (decimal? digits).isSome then
        ['-', 'n'] :: (if sign = '-' then digits else sign :: digits) :: rest
      else (sign :: digits) :: rest
  | arguments => arguments

/-- The amount that the last option asks for. One sign in front of its number turns to the end of
a source that is not the usual one; the other sign means nothing. -/
def amountOf (name : ByteText) (usual : AmountOrigin) (turning : Char)
    (options : List (Char × ByteText)) : Job Amount :=
  options.foldlM (fun _ (letter, value) => do
    let inLines := letter == 'n'
    let text := if value.head? = some '-' then value.tail else value
    match decimal? (if text.head? = some '+' then text.tail else text) with
    | some count =>
        return ⟨inLines, if value.head? = some turning then usual.other else usual, count⟩
    | none =>
        let unit := if inLines then "lines: " else "bytes: "
        grumble name ("invalid number of ".toList ++ unit.toList ++ spelled text)
        throw (.exited 1)) ⟨true, usual, 10⟩

/-! ## Sources -/

def sourceTitle (operand : ByteText) : ByteText :=
  if isInput operand then "standard input".toList else operand

/-- Complain that a source cannot be read on. -/
def refuseReading (name operand : ByteText) (cause : OsCause) : Job Unit :=
  grumble name ("error reading ".toList ++ enclosed (sourceTitle operand) ++ ": ".toList ++
    cause.reason.toList)

/-- Put out a part of an excerpt, or end the program. -/
def putExcerpt (name text : ByteText) : Job Unit := do
  put text
  match (← get).held.fault with
  | none => return ()
  | some cause =>
      say (name ++ ": error writing 'standard output': ".toList ++ cause.reason.toList)
      throw (.exited 1)

/-- Put out excerpts of sources one after the other, where `work` does that for an open
source and says whether it went well. -/
def excerpts (name : ByteText) (titled : Bool) (work : (operand : ByteText) → (descriptor : Nat) → Job Bool) :
    (isFirst isWhole : Bool) → List ByteText → Job Bool
  | _, isWhole, [] => return isWhole
  | isFirst, isWhole, operand :: rest => do
      match ← openSource operand with
      | .error cause =>
          grumble name ("cannot open ".toList ++ enclosed operand ++ " for reading: ".toList ++
            cause.reason.toList)
          excerpts name titled work isFirst false rest
      | .ok descriptor =>
          if titled then
            put ((if isFirst then [] else ['\n']) ++ "==> ".toList ++ sourceTitle operand ++
              " <==\n".toList)
          let isTaken ← work operand descriptor
          closeSource operand descriptor
          excerpts name titled work false (isWhole && isTaken) rest

def excerptAll (name : ByteText) (operands : List ByteText)
    (work : (operand : ByteText) → (descriptor : Nat) → Job Bool) : Job Nat := do
  let operands := sourceNames operands
  let isWhole ← excerpts name (1 < operands.length) work true true operands
  if operands.any isInput && (← opened? 0).isNone then
    grumble name "-: Bad file descriptor".toList
    return 1
  else concluding name (return if isWhole then 0 else 1)

/-- How many bytes are read at a time. -/
def excerptBlock : Nat :=
  8192

/-! ## The beginning -/

/-- Put out so many of the next bytes, reading at most so many times. -/
def headBytes (name operand : ByteText) (descriptor : Nat) : (times : Nat) → (count : Nat) → Job Bool
  | 0, _ => return true
  | times + 1, count => do
      if count = 0 then return true
      else
        match ← readSome descriptor (min count excerptBlock) with
        | .error cause =>
            refuseReading name operand cause
            return false
        | .ok [] => return true
        | .ok text =>
            putExcerpt name text
            headBytes name operand descriptor times (count - text.length)

/-- Put out so many of the next lines, reading at most so many times. -/
def headLines (name operand : ByteText) (descriptor : Nat) :
    (times : Nat) → (count : Nat) → Job Bool
  | 0, _ => return true
  | times + 1, count => do
      if count = 0 then return true
      else
        match ← readSome descriptor excerptBlock with
        | .error cause =>
            refuseReading name operand cause
            return false
        | .ok [] => return true
        | .ok text =>
            let (length, missing) := linesLength 0 count text
            giveBack descriptor (text.length - length)
            putExcerpt name (text.take length)
            headLines name operand descriptor times missing

/-- Put out all but so much at the end. -/
def headBefore (name operand : ByteText) (inLines : Bool) (count descriptor : Nat) : Job Bool := do
  if (← opened? descriptor).isNone then
    grumble name ("cannot fstat ".toList ++ enclosed (sourceTitle operand) ++
      ": Bad file descriptor".toList)
    return false
  else
    let (text, fault) ← readRest excerptBlock descriptor greatestReads []
    match fault with
    | some cause =>
        refuseReading name operand cause
        return false
    | none =>
        let length := lengthBefore inLines count text
        giveBack descriptor (text.length - length)
        putExcerpt name (text.take length)
        return true

/-- Take the beginning of each source. -/
def head : Program := fun name arguments => do
  let given ← givenTo excerptOptions name (expandCount ['-'] arguments)
  let amount ← amountOf name .start '-' given.options
  excerptAll name given.operands fun operand descriptor =>
    match amount.origin, amount.inLines with
    | .start, true => headLines name operand descriptor greatestReads amount.count
    | .start, false => headBytes name operand descriptor greatestReads amount.count
    | .finish, inLines => headBefore name operand inLines amount.count descriptor

/-! ## The end -/

/-- Pass over so many bytes or lines; the answer is what was read behind them, and none at
the end or at a failure. -/
def skip (inLines : Bool) (descriptor : Nat) :
    (times : Nat) → (count : Nat) → Job (Except OsCause (Option ByteText))
  | 0, _ => return .ok none
  | times + 1, count => do
      if count = 0 then return .ok (some [])
      else
        match ← readSome descriptor excerptBlock with
        | .error cause => return .error cause
        | .ok [] => return .ok none
        | .ok text =>
            let (length, missing) :=
              if inLines then linesLength 0 count text
              else (min count text.length, count - text.length)
            if missing = 0 then return .ok (some (text.drop length))
            else skip inLines descriptor times missing

/-- Put out all that is left; a failure ends the program. -/
def putRest (name operand : ByteText) (descriptor : Nat) : (times : Nat) → Job Unit
  | 0 => return ()
  | times + 1 => do
      match ← readSome descriptor excerptBlock with
      | .error cause =>
          refuseReading name operand cause
          throw (.exited 1)
      | .ok [] => return ()
      | .ok text =>
          putExcerpt name text
          putRest name operand descriptor times

/-- Put out the end of an open source. The bytes at the end of a directory cannot be looked for,
which ends the program. -/
def tailSource (name : ByteText) (amount : Amount) (operand : ByteText) (descriptor : Nat) :
    Job Bool := do
  let refuse (cause : OsCause) : Job Bool := do
    refuseReading name operand cause
    if cause = .isDirectory ∧ !amount.inLines then throw (.exited 1) else return false
  if (← opened? descriptor).isNone then
    grumble name ("cannot fstat ".toList ++ enclosed (sourceTitle operand) ++
      ": Bad file descriptor".toList)
    return false
  else
    match amount.origin with
    | .start => do
        match ← skip amount.inLines descriptor greatestReads (amount.count - 1) with
        | .error cause => refuse cause
        | .ok none => return true
        | .ok (some text) =>
            putExcerpt name text
            putRest name operand descriptor greatestReads
            return true
    | .finish => do
        let (text, fault) ← readRest excerptBlock descriptor greatestReads []
        match fault with
        | some cause => refuse cause
        | none =>
            putExcerpt name (text.drop (lengthBefore amount.inLines amount.count text))
            return true

/-- Take the end of each source. -/
def tail : Program := fun name arguments => do
  let given ← givenTo excerptOptions name (expandCount ['-', '+'] arguments)
  let amount ← amountOf name .finish '+' given.options
  if amount.origin == .finish && amount.count == 0 then return 0
  else excerptAll name given.operands (tailSource name amount)

end TypeStub.Tool
