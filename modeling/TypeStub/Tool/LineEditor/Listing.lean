import TypeStub.Tool.LineEditor.Traffic

/-!
Contract: what is shown of a program and its run.

Owns:
- `Program.listing`, the commands of a program as they are understood;
- `showLine`, `showCommand` and their neighbours, which show the steps of a run.

What is shown goes out among the edited lines, but it does not end a line that has no end.
-/

namespace TypeStub.Tool.LineEditor

/-! ## Commands -/

/-- The octal digits of a byte, where those beyond ASCII count as negative numbers. -/
def shownOctal (c : Char) : ByteText :=
  let value := if c ≤ '\x7F' then c.toNat else Nat.pow 2 32 - 256 + c.toNat
  let digits := Nat.toDigits 8 value
  List.replicate (3 - digits.length) '0' ++ digits

def shownByte (c : Char) : ByteText :=
  match c with
  | '\\' => ['\\', '\\']
  | '\x07' => ['\\', 'a']
  | '\x0C' => ['\\', 'f']
  | '\n' => ['\\', 'n']
  | '\r' => ['\\', 'r']
  | '\t' => ['\\', 't']
  | '\x0B' => ['\\', 'v']
  | c => if ' ' ≤ c ∧ c ≤ '~' then [c] else '\\' :: 'o' :: shownOctal c

def shownExpression (expression : Option Expression) : ByteText :=
  let text := (expression.map Expression.text).getD []
  '/' :: ((text.flatMap fun c => if c = '/' then ['\\', '/'] else shownByte c) ++ ['/'])

def shownFlags (folds byLine : Char) (expression : Option Expression) : ByteText :=
  let style := expression.map Expression.style
  (if style.any (·.folds) then [folds] else []) ++ (if style.any (·.byLine) then [byLine] else [])

def Address.shown : Address → ByteText
  | .any => "[ADDR-NULL]".toList
  | .line number => decimalText number
  | .stepped first step => decimalText first ++ '~' :: decimalText step
  | .last => ['$']
  | .matching expression => shownExpression expression ++ shownFlags 'I' 'M' expression

def RangeEnd.shown : RangeEnd → ByteText
  | .address finish => finish.shown
  | .after count => '+' :: decimalText count
  | .multiple base => '~' :: decimalText base

/-- The lines for which a command is meant. -/
def Selection.shown : Selection → ByteText
  | .every => []
  | .single address => address.shown
  | .range first finish => first.shown ++ ',' :: finish.shown

def CaseChange.letter (change : CaseChange) : Char :=
  match change.first, change.all with
  | some .upper, _ => 'u'
  | some .lower, _ => 'l'
  | none, some .upper => 'U'
  | none, some .lower => 'L'
  | none, none => 'E'

def shownParts (before : CaseChange) : List ReplacementPart → ByteText
  | [] => []
  | part :: rest =>
      let change := if part.change = before then [] else ['\\', part.change.letter]
      let group := match part.group with
        | none => []
        | some 0 => ['&']
        | some number => '\\' :: decimalText number
      change ++ part.text ++ group ++ shownParts part.change rest

def Destination.shown : Destination → ByteText
  | .out => "/dev/stdout".toList
  | .err => "/dev/stderr".toList
  | .file name => name

def Substitution.shown (s : Substitution) : ByteText :=
  shownExpression s.expression ++ shownParts ⟨none, none⟩ s.replacement ++ ['/'] ++
    shownFlags 'i' 'm' s.expression ++ (if s.every then ['g'] else []) ++
    (if s.evaluates then ['e'] else []) ++ (if s.prints then ['p'] else []) ++
    (if s.nth = 0 then [] else decimalText s.nth) ++
    (s.writes.map fun destination => 'w' :: destination.shown).getD []

/-- A mapping of bytes behind its letter: those that are changed in ascending order. -/
def shownMapping (pairs : List (Char × Char)) : ByteText :=
  let bytes := ((List.range 256).map Char.ofNat).filter fun c => (pairs.lookup c).getD c ≠ c
  '/' :: (bytes ++ '/' :: (bytes.map (fun c => (pairs.lookup c).getD c) ++ ['/']))

/-- A number behind a blank, if there is one. -/
def shownArgument (argument : Option Nat) : ByteText :=
  (argument.map fun number => ' ' :: decimalText number).getD []

def Action.shown (program : Program) (action : Action) : ByteText :=
  match action with
  | .block _ => ['\x7b']
  | .blockEnd => ['\x7d']
  | .label name => ':' :: name
  | .jump condition target =>
      let letter := match condition with
        | .always => 'b'
        | .replaced => 't'
        | .notReplaced => 'T'
      letter :: match program.commands[target]?.map Command.action with
        | some (.label name) => ' ' :: name
        | _ => []
  | .append text => 'a' :: '\\' :: text
  | .insert text => 'i' :: '\\' :: text
  | .change text => 'c' :: '\\' :: text
  | .substitute s => 's' :: s.shown
  | .map pairs => 'y' :: shownMapping pairs
  | .delete => ['d']
  | .deleteLine => ['D']
  | .print => ['p']
  | .printLine => ['P']
  | .printNumber => ['=']
  | .printName => ['F']
  | .list width => 'l' :: shownArgument width
  | .next => ['n']
  | .nextAppend => ['N']
  | .quit code prints => (if prints then 'q' else 'Q') :: shownArgument code
  | .hold => ['h']
  | .holdAppend => ['H']
  | .recall => ['g']
  | .recallAppend => ['G']
  | .exchange => ['x']
  | .clear => ['z']
  | .readFile name | .copyFile name => 'r' :: ' ' :: name
  | .readLine name => 'R' :: ' ' :: name
  | .write destination => 'w' :: destination.shown
  | .writeLine destination => 'W' :: destination.shown
  | .evaluate script => 'e' :: ' ' :: (if script.isEmpty then [] else script ++ ['\n'])
  | .obsolete letter argument => letter :: shownArgument argument

/-- A command in a line of its own, below so many blocks. -/
def Command.shown (program : Program) (command : Command) (level : Nat) : ByteText :=
  let selection := command.selection.shown
  List.replicate (2 * level) ' ' ++ selection ++ (if command.inverted then ['!'] else []) ++
    (if selection.isEmpty then [] else [' ']) ++ command.action.shown program ++ ['\n']

/-- How many blocks are open before a command is shown and behind it. -/
def Action.levels (level : Int) : Action → Int × Int
  | .block _ => (level, level + 1)
  | .blockEnd => (level - 1, level - 1)
  | _ => (level, level)

/-- Commands below so many blocks. -/
def Program.listCommands (program : Program) (level : Int) : List Command → ByteText
  | [] => []
  | command :: rest =>
      let (here, behind) := command.action.levels level
      command.shown program here.toNat ++ program.listCommands behind rest

def Program.listing (program : Program) : ByteText :=
  "SED PROGRAM:\n".toList ++ program.listCommands 1 program.commands.toList

/-! ## Steps -/

def showText (setting : Setting) (text : ByteText) : Editing Unit := do
  if setting.shows then outside (Tool.put text)

def showTitled (setting : Setting) (title : String) (text : ByteText) : Editing Unit :=
  showText setting (title.toList ++ text.flatMap shownByte ++ ['\n'])

def showSpace (setting : Setting) : Editing Unit := do
  showTitled setting "PATTERN: " (← get).space.text

def showHeld (setting : Setting) : Editing Unit := do
  showTitled setting "HOLD:    " (← get).held.text

/-- Show which line was read, and its text. -/
def showLine (setting : Setting) : Editing Unit := do
  let editor ← get
  let isInput : Bool := editor.source.any (·.descriptor == 0)
  let name := if isInput then "STDIN".toList else editor.sourceName
  showText setting ("INPUT:   '".toList ++ name ++ "' line ".toList ++ decimalText editor.number ++
    ['\n'])
  showSpace setting

def showCommand (setting : Setting) (program : Program) (command : Command) : Editing Unit := do
  if setting.shows then
    let (here, behind) := command.action.levels (← get).level
    modify fun editor => { editor with level := behind }
    showText setting ("COMMAND: ".toList ++ command.shown program here.toNat)

/-- Show what the groups of an expression hold where it occurs first, up to one that holds
nothing. -/
def showGroups (setting : Setting) (expression : Expression) : Editing Unit := do
  if setting.shows then
    let text := (← get).space.text.toArray
    match expression.find? true setting.lineEnd text 0 with
    | none => return ()
    | some occurrence =>
        let held := (occurrence.groups.toList.takeWhile Option.isSome).filterMap id
        let row (number : Nat) (place : Nat × Nat) : ByteText :=
          "  regex[".toList ++ decimalText number ++ "] = ".toList ++ decimalText place.1 ++
            '-' :: decimalText place.2 ++ " '".toList ++ (text.extract place.1 place.2).toList ++
            "'\n".toList
        showText setting ("MATCHED REGEX REGISTERS\n".toList ++ (held.mapIdx row).flatten)

def showCycleEnd (setting : Setting) : Editing Unit :=
  showText setting "END-OF-CYCLE:\n".toList

/-- Show what an action has changed; `goesOn` says that the work on the text goes on. -/
def showChange (setting : Setting) (goesOn : Bool) : Action → Editing Unit
  | .substitute _ | .map _ | .clear | .recallAppend => showSpace setting
  | .next | .nextAppend | .deleteLine => if goesOn then showSpace setting else return ()
  | .exchange => do
      showSpace setting
      showHeld setting
  | .hold | .holdAppend | .recall => showHeld setting
  | _ => return ()

end TypeStub.Tool.LineEditor
