import TypeStub.Tool.Shell.Arithmetic
import TypeStub.Tool.Shell.Pathname
import TypeStub.Tool.Shell.State

/-!
Contract: what words stand for.

Owns:
- `Piece` and the division of pieces into fields;
- the values of parameters;
- `expandFields`, `expandText` and `expandPattern`, the three uses of a word.

What is expanded outside of quotes is divided into fields. Blanks between fields count as
one, and any other separator ends a field of its own. A field can stand for paths.
-/

namespace TypeStub.Tool.Shell

inductive Piece where
  | byte (c : Char) (quoted divides : Bool)
  /-- There is a field here, even if it is empty. -/
  | mark
  /-- A field ends here, as at a blank. -/
  | boundary
  /-- An expansion begins here. -/
  | border
deriving DecidableEq, Repr

/-- The way to run a command of a subshell to its end. -/
abbrev Runner :=
  Command → Running Nat

/-! ## Fields -/

/-- A reader of fields: those that are complete, the latest first, and the one that has begun,
with its latest byte first. -/
structure FieldReader where
  fields : List (List (Char × Bool))
  field : List (Char × Bool)
  begun : Bool
  /-- Behind the end of a field in one expansion: whether a separator that is no blank still
  belongs to that end. -/
  absorbs : Option Bool

namespace FieldReader

def finish (reader : FieldReader) (absorbs : Option Bool) : FieldReader :=
  ⟨reader.field.reverse :: reader.fields, [], false, absorbs⟩

def read (ifs : ByteText) (reader : FieldReader) : Piece → FieldReader
  | .mark => { reader with begun := true, absorbs := none }
  | .border => { reader with absorbs := none }
  | .boundary => if reader.begun then reader.finish (some true) else reader
  | .byte c quoted divides =>
      if divides && ifs.contains c then
        let isBlank : Bool := c == ' ' || c == '\t' || c == '\n'
        if reader.begun then reader.finish (some isBlank)
        else if isBlank then reader
        else if reader.absorbs = some true then { reader with absorbs := some false }
        else reader.finish (some false)
      else { reader with field := (c, quoted) :: reader.field, begun := true, absorbs := none }

end FieldReader

/-- The fields of pieces, as bytes with whether they were quoted. -/
def fieldsOf (ifs : ByteText) (pieces : List Piece) : List (List (Char × Bool)) :=
  let reader := pieces.foldl (FieldReader.read ifs) ⟨[], [], false, none⟩
  (if reader.begun then reader.finish none else reader).fields.reverse

def bytesOf (pieces : List Piece) : List (Char × Bool) :=
  pieces.filterMap fun
    | .byte c quoted _ => some (c, quoted)
    | _ => none

def textOf (pieces : List Piece) : ByteText :=
  (bytesOf pieces).map (·.1)

def piecesOf (quoted : Bool) (text : ByteText) : List Piece :=
  .border :: text.map fun c => .byte c quoted (!quoted)

/-! ## Parameters -/

def isAll (name : ByteText) : Bool :=
  name == ['@'] || name == ['*']

/-- The value of a parameter that is not all arguments. -/
def parameter? (state : State) (name : ByteText) : Option ByteText :=
  match name with
  | ['?'] => some (decimalText state.status)
  | ['#'] => some (decimalText state.arguments.length)
  | ['$'] => some (decimalText ownProcess)
  | ['-'] => some state.options
  | ['!'] => state.companions.head?.map fun (number, _) => decimalText number
  | ['0'] => some state.name
  | _ =>
      match decimal? name with
      | some number => if number = 0 then some state.name else state.arguments[number - 1]?
      | none => state.value? name

/-- The pieces of all arguments. Where fields do not count (`joined`) they stand together. -/
def allPieces (joined : Bool) (name : ByteText) (quoted : Bool) : Running (List Piece) := do
  let ifs ← separators
  let arguments := (← get).arguments
  if joined || (quoted && name == ['*']) then
    return piecesOf quoted ((ifs.take 1).intercalate arguments)
  else
    let each := arguments.map fun argument =>
      if quoted then .mark :: piecesOf true argument else (piecesOf false argument).tail
    return .border :: [Piece.boundary].intercalate each

/-- The text of pieces, with a mark between the fields that they keep apart. -/
def markedText (pieces : List Piece) : ByteText :=
  pieces.filterMap fun
    | .byte c _ _ => some c
    | .boundary => some '\x00'
    | _ => none

def markedPieces (quoted : Bool) (text : ByteText) : List Piece :=
  let each := (text.splitOn '\x00').map fun field =>
    if quoted then .mark :: piecesOf true field else (piecesOf false field).tail
  .border :: [Piece.boundary].intercalate each

/-- Complain that a parameter has no value and end the script. -/
def refuseUnset {α : Type} (name problem : ByteText) : Running α :=
  abort (name ++ ": ".toList ++ problem)

/-- The pieces of a word that stands for a value, which are divided unless quoted. -/
def dividing (quoted : Bool) (pieces : List Piece) : List Piece :=
  if quoted then pieces
  else
    .border :: pieces.map fun
      | .byte c false _ => .byte c false true
      | piece => piece

/-- The pieces of a parameter, where `inner` expands a word and `present` are the pieces of
its value, if there is one. -/
def expandUse (inner : Word → Running (List Piece)) (name : ByteText) (quoted : Bool)
    (present : Option (List Piece)) : ParameterUse → Running (List Piece)
  | .value => return present.getD []
  | .length => return piecesOf quoted (decimalText (textOf (present.getD [])).length)
  | .fallback emptyToo word => do
      match present.filter fun pieces => !emptyToo || !(textOf pieces).isEmpty with
      | some pieces => return pieces
      | none => return dividing quoted (← inner word)
  | .alternative emptyToo word => do
      match present.filter fun pieces => !emptyToo || !(textOf pieces).isEmpty with
      | some _ => return dividing quoted (← inner word)
      | none => return []
  | .assign emptyToo word => do
      match present.filter fun pieces => !emptyToo || !(textOf pieces).isEmpty with
      | some pieces => return pieces
      | none =>
          if !isName name then refuseUnset name "bad variable name".toList
          else
            let text := textOf (← inner word)
            assign name text
            return piecesOf quoted text
  | .demand emptyToo word => do
      match present.filter fun pieces => !emptyToo || !(textOf pieces).isEmpty with
      | some pieces => return pieces
      | none =>
          let usual := if emptyToo then "parameter not set or null" else "parameter not set"
          let text := textOf (← inner word)
          refuseUnset name (if word.isEmpty then usual.toList else text)
  | .trim atEnd longest pattern => do
      let signs := wildcards (bytesOf (← inner pattern))
      return markedPieces quoted (trimmed atEnd longest signs (markedText (present.getD [])))

def needsValue : ParameterUse → Bool
  | .value | .length | .trim _ _ _ => true
  | _ => false

/-! ## Words -/

def evaluateNumber (text : ByteText) : Running Int64 := do
  let state ← get
  let lookup (name : ByteText) : Except CalculationFault Int64 :=
    match state.value? name with
    | none | some [] => .ok 0
    | some value =>
        match wholeNumber? value with
        | some number => .ok number
        | none => .error (.notNumber value)
  match calculate lookup text with
  | .error fault =>
      match fault.message? text with
      | some message => abort message
      | none => (throw (.killed 8) : Job Int64)
  | .ok (value, changes) =>
      changes.forM fun (name, value) => assign name (numberText value)
      return value

/-- A text without the line feeds at its end. -/
def withoutLastLines (text : ByteText) : ByteText :=
  (text.reverse.dropWhile (· == '\n')).reverse

def expandPart (runner : Runner) (inner : (tildes : Bool) → Word → Running (List Piece))
    (joined : Bool) : WordPart → Running (List Piece)
  | .byte c quoted => return [.byte c quoted false]
  | .mark => return [.mark]
  | .parameter name use quoted => do
      let state ← get
      let present ←
        if isAll name then
          if state.arguments.isEmpty && !use matches .trim _ _ _ then pure none
          else some <$> allPieces (joined || use matches .length) name quoted
        else pure ((parameter? state name).map (piecesOf quoted))
      if present.isNone && needsValue use && state.has 'u' && !isAll name then
        refuseUnset name "parameter not set".toList
      else expandUse (inner true) name quoted present use
  | .output command quoted => do
      let (out, code) ← capture (runner command)
      modify fun state => { state with substituted := some code }
      return piecesOf quoted (withoutLastLines (out.filter (· ≠ '\x00')))
  | .number expression quoted => do
      let value ← evaluateNumber (textOf (← inner false expression))
      return piecesOf quoted (numberText value)
  | .malformed => abort "Bad substitution".toList

/-! ## Homes -/

/-- The directory that a tilde stands for, with a name behind it. -/
def home? (state : State) (name : ByteText) : Option ByteText :=
  if name.isEmpty then state.value? "HOME".toList
  else if name = "root".toList then some "/root".toList
  else none

/-- The directory for a tilde with the parts behind it, and how many of those belong to it. In
an assignment a colon ends the name as well as a slash. -/
def leadingHome? (state : State) (colons : Bool) (rest : Word) : Option (ByteText × Nat) :=
  let ends (c : Char) : Bool := c == '/' || (colons && c == ':')
  let name := (rest.map WordPart.bare?).takeWhile fun c => c.any fun c => !ends c
  let isWhole := match (rest[name.length]?).map WordPart.bare? with
    | none => true
    | some c => c.any ends
  if isWhole then (home? state (name.filterMap id)).map (·, name.length) else none

/-- The word with directories for its tildes, behind so many parts that are left out. -/
def withHomes (state : State) (colons : Bool) : (skipped : Nat) → (atStart : Bool) → Word → Word
  | _, _, [] => []
  | skipped + 1, _, _ :: rest => withHomes state colons skipped false rest
  | 0, atStart, part :: rest =>
      let home := if atStart && part.bare? == some '~' then leadingHome? state colons rest else none
      match home with
      | some (directory, skipped) =>
          (directory.map fun c => .byte c true) ++ withHomes state colons skipped false rest
      | none => part :: withHomes state colons 0 (colons && part.bare? == some ':') rest

/-- The pieces of a word, with words inside of words up to a depth. A tilde can stand for a
directory at the start of a word, and behind a colon too if `colons` says so. -/
def expandPieces (runner : Runner) (joined colons : Bool) :
    (depth : Nat) → (tildes : Bool) → Word → Running (List Piece)
  | 0, _, _ => return []
  | depth + 1, tildes, word => do
      let state ← get
      let word := if tildes then withHomes state colons 0 true word else word
      let inner := expandPieces runner joined colons depth
      let pieces ← word.mapM (expandPart runner inner joined)
      return pieces.flatten

def wordDepth : Nat :=
  1000

/-! ## Uses of words -/

def expandFields (runner : Runner) (word : Word) : Running (List ByteText) := do
  let pieces ← expandPieces runner false false wordDepth true word
  let fields := fieldsOf (← separators) pieces
  if (← get).has 'f' then return fields.map fun field => field.map (·.1)
  else
    let task ← task
    return fields.flatMap (pathnames task.world task.process)

/-- The text that a word stands for where it is not divided. -/
def expandText (runner : Runner) (word : Word) : Running ByteText := do
  return textOf (← expandPieces runner true false wordDepth true word)

def expandValue (runner : Runner) (word : Word) : Running ByteText := do
  return textOf (← expandPieces runner true true wordDepth true word)

def expandPattern (runner : Runner) (word : Word) : Running (List Wildcard) := do
  let pieces ← expandPieces runner true false wordDepth true word
  return wildcards (bytesOf pieces)

end TypeStub.Tool.Shell
