import TypeStub.Tool.LineEditor.Listing

/-!
Contract: the run of a program over the lines of its sources.

Owns:
- `Selection.holds`, which says whether a command is meant for a line;
- `Action.run`, what a command does;
- `runCycles`, the run as a whole.
-/

namespace TypeStub.Tool.LineEditor

/-- The code of a run whose program turns out to mean nothing. -/
def meaninglessCode : Nat :=
  1

/-- Complain about the program and end the run. -/
def refuseProgram {α : Type} (setting : Setting) (problem : ProgramProblem) : Editing α := do
  let fault : ProgramFault := .located setting.origin 0 setting.lastLine problem
  outside (say (setting.name ++ ": ".toList ++ fault.message))
  throw meaninglessCode

/-! ## Addresses -/

def expressionOf (setting : Setting) (expression : Option Expression) : Editing Expression := do
  match expression with
  | some expression =>
      modify fun editor => { editor with expression := some expression }
      return expression
  | none =>
      match (← get).expression with
      | some expression => return expression
      | none => refuseProgram setting .noExpression

def Address.holds (setting : Setting) (address : Address) : Editing Bool := do
  let editor ← get
  match address with
  | .any => return true
  | .line number => return editor.number == number
  | .stepped first step =>
      let number := editor.number
      return first ≤ number && (number - first) % step == 0
  | .last => atEnd setting
  | .matching expression => return (← expressionOf setting expression).occursIn setting.lineEnd editor.space.text

/-- A range that begins at an address can begin at the line. One that begins at the number of
a line does so at the first line from there on for which the command is reached. -/
def Address.begins (setting : Setting) (address : Address) : Editing Bool := do
  match address with
  | .line number => return number ≤ (← get).number
  | _ => address.holds setting

def Address.ended : Address → RangeState
  | .line _ => .closed
  | _ => .idle

/-- Whether the line with which a range begins belongs to it, and where the range is then. -/
def RangeEnd.begin (setting : Setting) (first : Address) (finish : RangeEnd) : Editing (Bool × RangeState) := do
  let number := (← get).number
  let upTo (finish : Nat) : RangeState := if finish ≤ number then first.ended else .upTo finish
  match finish with
  | .address (.line finish) =>
      let belongs : Bool := match first with
        | .line start => number ≤ finish || number == start
        | _ => true
      return (belongs, upTo finish)
  | .address (.stepped start step) =>
      let isEnd ← (Address.stepped start step).holds setting
      return (true, if isEnd then first.ended else .unbounded)
  | .address .any => return (true, first.ended)
  | .address _ => return (true, .unbounded)
  | .after count => return (true, upTo (number + count))
  | .multiple base =>
      return (true, upTo (if base = 0 then number else number + base - number % base))

/-- The command at an index is meant for the line. A range that ends at the number of a line
is over behind it even if the command was not reached there; one whose length is given ends
where the command is reached next. -/
def Selection.holds (setting : Setting) (index : Nat) (selection : Selection) : Editing Bool := do
  let put (state : RangeState) : Editing Unit :=
    modify fun editor => { editor with ranges := editor.ranges.setIfInBounds index state }
  match selection with
  | .every => return true
  | .single address => address.holds setting
  | .range first finish =>
      let editor ← get
      let number := editor.number
      match editor.ranges[index]?.getD .idle, finish with
      | .closed, _ => return false
      | .idle, _ =>
          if ← first.begins setting then
            let (belongs, state) ← finish.begin setting first
            put state
            return belongs
          else return false
      | .upTo last, .address _ =>
          if last ≤ number then put first.ended
          return number ≤ last
      | .upTo last, _ =>
          if last ≤ number then put first.ended
          return true
      | .unbounded, .address address =>
          if ← address.holds setting then put first.ended
          return true
      | .unbounded, _ =>
          put first.ended
          return true

/-! ## Commands -/

inductive Step where
  | next
  | goTo (place : Nat)
  /-- The work on the text ends; `prints` says that it is written then. -/
  | cycle (prints : Bool)
  /-- The text is used up: the next line takes its place. -/
  | used
  /-- The program starts again without a new line. -/
  | again
  /-- The run ends with a code; `prints` says that all is written that is to be written. -/
  | quit (code : Nat) (prints : Bool)
deriving DecidableEq, Repr

def listedByte (c : Char) : ByteText :=
  match c with
  | '\\' => ['\\', '\\']
  | '\x07' => ['\\', 'a']
  | '\x08' => ['\\', 'b']
  | '\x0C' => ['\\', 'f']
  | '\n' => ['\\', 'n']
  | '\r' => ['\\', 'r']
  | '\t' => ['\\', 't']
  | '\x0B' => ['\\', 'v']
  | c =>
      let digit (value : Nat) : Char := Char.ofNat (48 + value % 8)
      if ' ' ≤ c ∧ c ≤ '~' then [c]
      else ['\\', digit (c.toNat / 64), digit (c.toNat / 8), digit c.toNat]

/-- The listing of a text, which is broken so that each line has at most `width` characters and
ends with the mark; a width of zero sets no bound. -/
def listing (mark : Char) (width : Nat) (text : ByteText) : ByteText :=
  let step (state : Nat × List ByteText) (c : Char) : Nat × List ByteText :=
    let (used, pieces) := state
    let spelled := listedByte c
    if width ≠ 0 ∧ width - 1 < used + spelled.length then
      (spelled.length, spelled :: ['\\', mark] :: pieces)
    else (used + spelled.length, spelled :: pieces)
  ((text.foldl step (0, [])).2.reverse).flatten ++ ['$', mark]

def firstLine (mark : Char) (text : ByteText) : ByteText :=
  text.takeWhile (· ≠ mark)

/-- The first line of a space, which has an end unless it is all there is. -/
def Space.firstLine (mark : Char) (space : Space) : Space :=
  if space.text.contains mark then ⟨LineEditor.firstLine mark space.text, true⟩ else space

def putSpaceText (text : ByteText) : Editing Unit :=
  modify fun editor => { editor with space := { editor.space with text } }

/-- Run the text up to a zero byte as a script and put its output for it. The output is
gathered in the spare room, and the line has the end that is marked there. -/
def evaluateText (setting : Setting) : Editing Unit := do
  let out ← outside (setting.evaluate ((← get).space.text.takeWhile (· ≠ '\x00')))
  let text := if out.getLast? = some setting.lineEnd then out.dropLast else out
  modify fun editor =>
    { editor with space := ⟨text, editor.spare⟩, spare := editor.space.ended }

/-- The mark of the spare room after a substitution in a space. A text is put together there
and takes the mark of its line along, unless its start or its end only had to be cut off. -/
def Substitution.markSpare (s : Substitution) (expression : Expression) (lineEnd : Char)
    (space : Space) (spare : Bool) : Bool :=
  if space.ended = spare then spare
  else
    match expression.find? true lineEnd space.text.toArray 0 with
    | none => spare
    | some occurrence =>
        let isCut : Bool := s.replacement.isEmpty && decide (s.nth ≤ 1) &&
          ((occurrence.start == 0 && !s.every) || occurrence.finish == space.text.length)
        if isCut then spare else space.ended

def Substitution.run (setting : Setting) (s : Substitution) : Editing Unit := do
  let expression ← expressionOf setting s.expression
  let needed := s.replacement.foldl (fun greatest part => max greatest (part.group.getD 0)) 0
  if !setting.strict && expression.groups < needed then refuseProgram setting (.unknownGroup needed)
  showGroups setting expression
  let space := (← get).space
  let (text, changed) := substitute s expression setting.lineEnd space.text
  modify fun editor =>
    { editor with spare := s.markSpare expression setting.lineEnd space editor.spare }
  if changed then
    putSpaceText text
    modify fun editor => { editor with replaced := true }
    if s.evaluates then evaluateText setting
    if s.prints then putText setting
    match s.writes with
    | none => return ()
    | some destination => putSpace setting destination (← get).space

/-- Carry out the action of the command at an index. -/
def Action.run (setting : Setting) (program : Program) (index : Nat) (action : Action) :
    Editing Step := do
  let editor ← get
  let space := editor.space
  match action with
  | .block _ | .blockEnd | .label _ => return .next
  | .jump .always target => return .goTo target
  | .jump .replaced target =>
      if editor.replaced then
        set { editor with replaced := false }
        return .goTo target
      else return .next
  | .jump .notReplaced target =>
      if editor.replaced then
        set { editor with replaced := false }
        return .next
      else return .goTo target
  | .append text =>
      set { editor with added := .text text :: editor.added }
      return .next
  | .insert text =>
      putLines setting text
      return .next
  | .change text =>
      let state := editor.ranges[index]?.getD .idle
      if state = RangeState.idle ∨ state = RangeState.closed then putLines setting text
      return .cycle false
  | .substitute s =>
      s.run setting
      return .next
  | .map pairs =>
      putSpaceText (space.text.map fun c => (pairs.lookup c).getD c)
      return .next
  | .delete => return .cycle false
  | .deleteLine =>
      let mark := setting.lineEnd
      if space.text.contains mark then
        putSpaceText (space.text.drop ((firstLine mark space.text).length + 1))
        return .again
      else return .used
  | .print =>
      putText setting
      return .next
  | .printLine =>
      putLine setting (space.firstLine setting.lineEnd)
      return .next
  | .printNumber =>
      putBytes setting (decimalText editor.number ++ [setting.lineEnd])
      return .next
  | .printName =>
      putBytes setting (editor.sourceName ++ [setting.lineEnd])
      return .next
  | .list width =>
      putBytes setting (listing setting.lineEnd (width.getD setting.width) space.text)
      return .next
  | .next =>
      let isLast ← atEnd setting
      if !setting.quiet then putText setting
      if isLast then return .cycle false
      else
        if ← takeLine setting program fun _ text => text then return .next
        else return .cycle false
  | .nextAppend =>
      if ← atEnd setting then return .cycle (!setting.strict)
      else if ← takeLine setting program fun before text => before ++ setting.lineEnd :: text then
        return .next
      else return .cycle false
  | .quit code prints => return .quit (code.getD 0 % 256) prints
  | .hold =>
      set { editor with held := space }
      return .next
  | .holdAppend =>
      let text := editor.held.text ++ setting.lineEnd :: space.text
      set { editor with held := ⟨text, space.ended⟩ }
      return .next
  | .recall =>
      set { editor with space := editor.held }
      return .next
  | .recallAppend =>
      let text := space.text ++ setting.lineEnd :: editor.held.text
      set { editor with space := ⟨text, editor.held.ended⟩ }
      return .next
  | .exchange =>
      set { editor with space := editor.held, held := space }
      return .next
  | .clear =>
      putSpaceText []
      return .next
  | .readFile name =>
      set { editor with added := .file name :: editor.added }
      return .next
  | .copyFile name =>
      putFile setting (putRaw setting editor.main) name
      return .next
  | .readLine name =>
      let line ← takeFileLine setting name
      modify fun editor => { editor with added := (line.map Addition.text).toList ++ editor.added }
      return .next
  | .write destination =>
      putSpace setting destination space
      return .next
  | .writeLine destination =>
      putSpace setting destination (space.firstLine setting.lineEnd)
      return .next
  | .evaluate script =>
      if script.isEmpty then evaluateText setting
      else
        payEnd setting editor.main
        putBytes setting (← outside (setting.evaluate script))
      return .next
  | .obsolete letter _ => breakOff setting ("INTERNAL ERROR: Bad cmd ".toList ++ [letter])

/-! ## Runs -/

/-- How many steps a run can have. Only one that would not end has as many. -/
def mostSteps : Nat :=
  Nat.pow 10 15

def runFrom (setting : Setting) (program : Program) : (steps place : Nat) → Editing Step
  | 0, _ => return .quit 0 false
  | steps + 1, place => do
      match program.commands[place]? with
      | none => return .cycle true
      | some command =>
          showCommand setting program command
          let holds ← command.selection.holds setting place
          if holds == command.inverted then
            match command.action with
            | .block finish => runFrom setting program steps finish
            | _ => runFrom setting program steps (place + 1)
          else
            let step ← command.action.run setting program place
            showChange setting (step matches .next | .again) command.action
            match step with
            | .next => runFrom setting program steps (place + 1)
            | .goTo target => runFrom setting program steps target
            | step => return step

/-- Work on the text and then on the lines that follow. The answer is the code to leave
with. -/
def runCycles (setting : Setting) (program : Program) : (steps : Nat) → Editing Nat
  | 0 => return 0
  | steps + 1 => do
      let nextCycle (rest : Editing Nat) : Editing Nat := do
        if ← takeLine setting program fun _ text => text then
          showLine setting
          rest
        else return 0
      match ← runFrom setting program mostSteps 0 with
      | .again => runCycles setting program steps
      | .used => nextCycle (runCycles setting program steps)
      | .quit code prints =>
          if prints then
            if !setting.quiet then putText setting
            putAdded setting
            putBytes setting []
          return code
      | .cycle prints =>
          showCycleEnd setting
          if prints && !setting.quiet then putText setting
          nextCycle (runCycles setting program steps)
      | .next | .goTo _ => return 0

/-- Edit all lines of the sources. The answer is the code to leave with. -/
def Program.run (setting : Setting) (program : Program) : Editing Nat := do
  showText setting program.listing
  if ← takeLine setting program fun _ text => text then
    showLine setting
    let code ← runCycles setting program mostSteps
    closeSource setting
    return code
  else return 0

end TypeStub.Tool.LineEditor
