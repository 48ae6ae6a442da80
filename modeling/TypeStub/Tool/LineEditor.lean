import TypeStub.Tool.LineEditor.Reader
import TypeStub.Tool.LineEditor.Run
import TypeStub.Tool.System.Execute

/-!
Contract: the program that edits its sources line by line.

Owns: `sed`, with its options, its help and its end.

The options are taken in their order, so that each piece of a program is read in the way that
the options before it say.
-/

namespace TypeStub.Tool

namespace LineEditor

/-! ## Options -/

def editorOptions : OptionTable where
  flags := "bEnrsuz".toList
  valued := "efl".toList
  names :=
    [("binary", 'b'), ("debug", 'D'), ("expression", 'e'), ("file", 'f'),
     ("follow-symlinks", 'F'), ("help", 'h'), ("in-place", 'i'), ("line-length", 'l'),
     ("null-data", 'z'), ("zero-terminated", 'z'), ("posix", 'P'), ("quiet", 'n'),
     ("regexp-extended", 'E'), ("sandbox", 'S'), ("separate", 's'), ("silent", 'n'),
     ("unbuffered", 'u')]
  valuedNames := []
  permutes := true
  optional := ['i']

/-- What the options say, and the pieces of the program that they give. -/
structure EditorWish where
  pieces : List Piece
  dialect : Dialect
  quiet : Bool
  width : Nat
  lineEnd : Char
  separate : Bool
  inPlace : Option ByteText
  hasty : Bool
  shows : Bool

/-- The number that a text begins with; a negative one counts as none. -/
def leadingCount (text : ByteText) : Nat :=
  decimalValue ((text.dropWhile isSpace).takeWhile Char.isDigit)

def argumentCount (pieces : List Piece) : Nat :=
  pieces.countP fun piece => piece.origin matches .argument _

/-- Why the options are not taken to their end. -/
inductive OptionStop where
  /-- A file with a piece of the program cannot be read. -/
  | unreadable (name : ByteText) (cause : OsCause)
  /-- Help is wanted, and not because of a problem. -/
  | help
  | misused (problem : ByteText)

/-- The text of a file with a piece of a program. -/
def pieceText (name : ByteText) : Job (Except OsCause ByteText) := do
  match ← openSource name with
  | .error cause => return .error cause
  | .ok descriptor =>
      let (text, _) ← readRest editorBlock descriptor greatestReads []
      Tool.closeSource name descriptor
      return .ok text

def takeOptions (wish : EditorWish) : List (Char × ByteText) → Job (EditorWish × Option OptionStop)
  | [] => return (wish, none)
  | (letter, value) :: rest => do
      let addPiece (origin : Origin) (text : ByteText) : EditorWish :=
        { wish with pieces := wish.pieces ++ [⟨origin, text, wish.dialect⟩] }
      match letter with
      | 'h' => return (wish, some .help)
      | 'e' => takeOptions (addPiece (.argument (argumentCount wish.pieces + 1)) value) rest
      | 'f' => do
          match ← pieceText value with
          | .error cause => return (wish, some (.unreadable value cause))
          | .ok text => takeOptions (addPiece (.file value) text) rest
      | 'n' => takeOptions { wish with quiet := true } rest
      | 'E' | 'r' => takeOptions { wish with dialect := { wish.dialect with extended := true } } rest
      | 'S' => takeOptions { wish with dialect := { wish.dialect with sandboxed := true } } rest
      | 'P' => takeOptions { wish with dialect := { wish.dialect with strict := true } } rest
      | 'D' => takeOptions { wish with shows := true } rest
      | 'l' => takeOptions { wish with width := leadingCount value } rest
      | 'z' => takeOptions { wish with lineEnd := Char.ofNat 0 } rest
      | 's' => takeOptions { wish with separate := true } rest
      | 'u' => takeOptions { wish with hasty := true } rest
      | 'i' =>
          let form := if value.contains '*' then value else '*' :: value
          takeOptions { wish with separate := true, inPlace := some form } rest
      | _ => takeOptions wish rest

/-! ## Help -/

def helpText (name : ByteText) : ByteText :=
  "Usage: ".toList ++ name ++
    (" [OPTION]... \x7bscript-only-if-no-other-script\x7d [input-file]...\n\n" ++
    "  -n, --quiet, --silent\n" ++
    "                 suppress automatic printing of pattern space\n" ++
    "      --debug\n" ++
    "                 annotate program execution\n" ++
    "  -e script, --expression=script\n" ++
    "                 add the script to the commands to be executed\n" ++
    "  -f script-file, --file=script-file\n" ++
    "                 add the contents of script-file to the commands to be executed\n" ++
    "  --follow-symlinks\n" ++
    "                 follow symlinks when processing in place\n" ++
    "  -i[SUFFIX], --in-place[=SUFFIX]\n" ++
    "                 edit files in place (makes backup if SUFFIX supplied)\n" ++
    "  -l N, --line-length=N\n" ++
    "                 specify the desired line-wrap length for the \x60l' command\n" ++
    "  --posix\n" ++
    "                 disable all GNU extensions.\n" ++
    "  -E, -r, --regexp-extended\n" ++
    "                 use extended regular expressions in the script\n" ++
    "                 (for portability use POSIX -E).\n" ++
    "  -s, --separate\n" ++
    "                 consider files as separate rather than as a single,\n" ++
    "                 continuous long stream.\n" ++
    "      --sandbox\n" ++
    "                 operate in sandbox mode (disable e/r/w commands).\n" ++
    "  -u, --unbuffered\n" ++
    "                 load minimal amounts of data from the input files and flush\n" ++
    "                 the output buffers more often\n" ++
    "  -z, --null-data\n" ++
    "                 separate lines by NUL characters\n" ++
    "      --help     display this help and exit\n" ++
    "      --version  output version information and exit\n\n" ++
    "If no -e, --expression, -f, or --file option is given, then the first\n" ++
    "non-option argument is taken as the sed script to interpret.  All\n" ++
    "remaining arguments are names of input files; if no input files are\n" ++
    "specified, then the standard input is read.\n\n").toList ++
    helpSites
where
  helpSites : ByteText :=
    let site (path : String) : String := "<https:" ++ "//www." ++ "gnu.org/" ++ path ++ "/>.\n"
    ("GNU sed home page: " ++ site "software/sed" ++
      "General help using GNU software: " ++ site "gethelp").toList

def helpAddress : ByteText :=
  ("E-mail bug reports to: <bug-sed" ++ "@" ++ "gnu.org>.\n").toList

/-! ## Runs -/

/-- Open the files that a program uses, up to one that cannot be opened; the answer has the
outputs and the files that lines are taken from. -/
def openUses (name : ByteText) (strict : Bool) (outputs : Array Output)
    (files : List (ByteText × LineFile)) :
    List FileUse → Job (Array Output × List (ByteText × LineFile))
  | [] => return (outputs, files)
  | .writes path :: rest => do
      match ← openFile .writing path with
      | .ok descriptor =>
          openUses name strict (outputs.push ⟨path, .descriptor descriptor, false, [], 0⟩) files rest
      | .error cause =>
          say (name ++ ": couldn't open file ".toList ++ path ++ ": ".toList ++ cause.reason.toList)
          throw (.exited brokenCode)
  | .reads path :: rest => do
      let descriptor ←
        if path = "/dev/stdin".toList && !strict then pure (Except.ok 0) else openFile .reading path
      match descriptor with
      | .ok descriptor =>
          openUses name strict outputs ((path, ⟨path, descriptor, [], false⟩) :: files) rest
      | .error _ => openUses name strict outputs files rest

/-- Write what is left in the outputs; the first failure decides on the code. -/
def closeOutputs (name : ByteText) : (outputs : List Output) → (code : Nat) → Job Nat
  | [], code => do
      if (← opened? 1).isNone then
        say (name ++ ": couldn't close stdout: Bad file descriptor".toList)
        return brokenCode
      else
        flush
        match (← get).held.fault with
        | none => return code
        | some cause =>
            say (name ++ ": couldn't flush stdout: ".toList ++ cause.reason.toList)
            return brokenCode
  | output :: rest, code => do
      match output.sink with
      | .descriptor number =>
          if output.size = 0 then closeOutputs name rest code
          else
            match ← write number output.pieces.reverse.flatten with
            | .ok () => closeOutputs name rest code
            | .error cause =>
                say (name ++ ": couldn't flush ".toList ++ output.name ++ ": ".toList ++
                  cause.reason.toList)
                flush
                return brokenCode
      | _ => closeOutputs name rest code

def editSources (setting : Setting) (program : Program) (outputs : Array Output)
    (files : List (ByteText × LineFile)) (sources : List ByteText) : Job Nat := do
  let start : Editor :=
    { space := ⟨[], true⟩
      held := ⟨[], true⟩
      spare := true
      number := 0
      replaced := false
      ranges := program.ranges
      expression := none
      later := sources
      source := none
      sourceName := ['-']
      startsAnew := false
      hasMissed := false
      replacement := none
      outputs
      main := plainOutput
      added := []
      files
      level := 0 }
  let (ended, editor) ← (program.run setting).run.run start
  match ended with
  | .ok code =>
      let code := if code = 0 && editor.hasMissed then 2 else code
      closeOutputs setting.name editor.outputs.toList.reverse code
  | .error code => do
      flush
      editor.outputs.toList.forM fun output => do
        match output.sink with
        | .descriptor number =>
            if output.size ≠ 0 && !(editor.replacement.isSome && output.name == editor.sourceName) then
              let _ ← write number output.pieces.reverse.flatten
        | _ => return ()
      return code

def usualOutputs : Array Output :=
  #[⟨"stdout".toList, .out, false, [], 0⟩, ⟨"stdout".toList, .out, false, [], 0⟩,
    ⟨"stderr".toList, .err, false, [], 0⟩]

/-- Where the last piece of a program comes from, and the number of its last line. -/
def lastPlace (pieces : List Piece) : Origin × Nat :=
  match pieces.getLast? with
  | none => (.argument 1, 1)
  | some piece => (piece.origin, 1 + piece.text.count '\n')

/-- The program of a wish, with the files that it uses opened. -/
def readProgram (name : ByteText) (wish : EditorWish) (stop : Option OptionStop) :
    Job (Program × Array Output × List (ByteText × LineFile)) := do
  let reading := Program.read wish.pieces
  let (outputs, files) ← openUses name wish.dialect.strict usualOutputs [] reading.files
  match reading.program with
  | .error fault =>
      if stop.isSome && fault.isFinal then return (⟨#[], false⟩, outputs, files)
      else
        say (name ++ ": ".toList ++ fault.message)
        throw (.exited fault.code)
  | .ok program => return (program, outputs, files)

/-- Say how the editor is used after a problem. -/
def showUse (name : ByteText) : Job Nat := do
  let _ ← write 2 (helpText name)
  return 1

/-- Do what is to be done when the options are not taken to their end. -/
def OptionStop.run (name : ByteText) : OptionStop → Job Nat
  | .unreadable path cause => do
      say (name ++ ": couldn't open file ".toList ++ path ++ ": ".toList ++ cause.reason.toList)
      return brokenCode
  | .help => do
      put (helpText name ++ helpAddress)
      closeOutputs name [] 0
  | .misused problem => do
      say (name ++ ": ".toList ++ problem)
      showUse name

def evaluateBy (shell : Tool.Program) (script : ByteText) : Job ByteText := do
  let pipe ← addPipe (.filled .empty)
  let index ← addOpened (writingEnd pipe)
  let _ ← runProgram shell "sh".toList [['-', 'c'], script] fun process =>
    { process with descriptors := putKey 1 index process.descriptors }
  return ((← pipe? pipe).map fun pipe => ofBytes pipe.bytes).getD []

end LineEditor

open LineEditor in
/-- Edit the sources line by line. `shell` runs the scripts that a program holds. -/
def sed (shell : Program) : Program := fun name arguments => do
  let strict ← isStrict
  let (given, problem) := (editorOptions.strict strict).scan arguments
  let columns := leadingCount (((← get).process.environment.lookup "COLS".toList).getD [])
  let usual : EditorWish :=
    { pieces := []
      dialect := ⟨false, false, strict⟩
      quiet := false
      width := if 1 < columns then columns - 1 else 70
      lineEnd := '\n'
      separate := false
      inPlace := none
      hasty := false
      shows := false }
  let (wish, stop) ← takeOptions usual given.options
  let stop := stop.or (problem.map .misused)
  match stop, wish.pieces, given.operands with
  | some stop, _, _ => do
      let _ ← readProgram name wish (some stop)
      stop.run name
  | none, [], [] => showUse name
  | none, pieces, operands => do
      let (pieces, operands) := match pieces, operands with
        | [], script :: operands => ([Piece.mk (.argument 1) script wish.dialect], operands)
        | pieces, operands => (pieces, operands)
      let wish := { wish with pieces }
      let (program, outputs, files) ← readProgram name wish none
      let (origin, lastLine) := lastPlace pieces
      let setting : Setting :=
        { name
          evaluate := evaluateBy shell
          quiet := wish.quiet || program.quiet
          width := wish.width
          lineEnd := wish.lineEnd
          separate := wish.separate
          inPlace := wish.inPlace
          hasty := wish.hasty
          strict := wish.dialect.strict
          shows := wish.shows
          origin
          lastLine }
      if setting.inPlace.isSome && operands.isEmpty then
        say (name ++ ": no input files".toList)
        return brokenCode
      else editSources setting program outputs files (sourceNames operands)

end TypeStub.Tool
