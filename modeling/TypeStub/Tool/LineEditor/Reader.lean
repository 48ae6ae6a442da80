import TypeStub.Tool.LineEditor.Program

/-!
Contract: the notation of programs that edit a text line by line.

Owns: `Program.read`, the program that some pieces of text write, or why they write none.

A piece ends the command that it holds, but the text of an added line goes on in the next
piece behind a backslash.
-/

namespace TypeStub.Tool.LineEditor

/-! ## Escapes -/

def digitValue? (base : Nat) (c : Char) : Option Nat :=
  let value :=
    if c.isDigit then some (c.toNat - '0'.toNat)
    else if 'a' ≤ c ∧ c ≤ 'f' then some (c.toNat - 'a'.toNat + 10)
    else if 'A' ≤ c ∧ c ≤ 'F' then some (c.toNat - 'A'.toNat + 10)
    else none
  value.filter (· < base)

/-- The byte that digits write, and the rest; without digits it is the letter that announces
them. -/
def numberedByte (base width : Nat) (letter : Char) (rest : ByteText) : Char × ByteText :=
  match ((rest.take width).map (digitValue? base)).takeWhile Option.isSome with
  | [] => (letter, rest)
  | digits =>
      let value := digits.foldl (fun value digit => value * base + digit.getD 0) 0
      (Char.ofNat (value % 256), rest.drop digits.length)

/-- What a backslash in front of a text makes. -/
inductive EscapeResult where
  | byte (c : Char) (rest : ByteText)
  /-- The backslash has no such meaning. -/
  | none
  /-- A control character is asked for that another escape would have to make. -/
  | repeated

/-- What a letter behind a backslash makes, with the characters behind it that belong to it. -/
def escapeResult : ByteText → EscapeResult
  | 'a' :: rest => .byte '\x07' rest
  | 'f' :: rest => .byte '\x0C' rest
  | '\n' :: rest => .byte '\n' rest
  | 'n' :: rest => .byte '\n' rest
  | 'r' :: rest => .byte '\r' rest
  | 't' :: rest => .byte '\t' rest
  | 'v' :: rest => .byte '\x0B' rest
  | ['c'] => .byte '\\' []
  | 'c' :: '\\' :: '\\' :: rest => .byte '\x1C' rest
  | 'c' :: '\\' :: _ => .repeated
  | 'c' :: c :: rest => .byte (Char.ofNat (Nat.xor c.toUpper.toNat 64)) rest
  | 'd' :: rest => let (c, rest) := numberedByte 10 3 'd' rest; .byte c rest
  | 'o' :: rest => let (c, rest) := numberedByte 8 3 'o' rest; .byte c rest
  | 'x' :: rest => let (c, rest) := numberedByte 16 2 'x' rest; .byte c rest
  | _ => .none

structure EscapeUse where
  /-- A backslash in front of any other character is left out. -/
  strips : Bool
  /-- The bytes that keep a backslash when an escape makes them. -/
  guarded : List Char
  /-- In brackets of expressions a backslash stands for itself. -/
  sparesBrackets : Bool

/-- Where a reader of escapes is with respect to the brackets of an expression. -/
inductive BracketPlace where
  | outside
  | inside
  /-- Inside of an inner bracket with the sign. -/
  | inner (sign : Char)
deriving DecidableEq, Repr

/-- The place behind a character, where the two characters before it are known. -/
def BracketPlace.after (place : BracketPlace) (second first : Option Char) (c : Char) :
    BracketPlace :=
  match place with
  | .outside => if c = '[' then .inside else .outside
  | .inside =>
      if (c = ':' ∨ c = '.' ∨ c = '=') ∧ first = some '[' then .inner c
      else if c = ']' then .outside
      else .inside
  | .inner sign => if c = ']' ∧ first = some sign ∧ second ≠ some sign then .inside else .inner sign

/-- Put the bytes that escapes make, of which at most `steps` are read; nothing if one of
them asks for another one. -/
def putEscapes (use : EscapeUse) (place : BracketPlace) (second first : Option Char) :
    (steps : Nat) → ByteText → Option ByteText
  | 0, text => some text
  | _, [] => some []
  | steps + 1, c :: rest =>
      if c = '\\' ∧ place = .outside then
        match escapeResult rest with
        | .repeated => none
        | .byte c rest =>
            (putEscapes use place first (some c) steps rest).map fun made =>
              if use.guarded.contains c then '\\' :: c :: made else c :: made
        | .none =>
            match rest with
            | [] => if use.strips then some [] else some ['\\']
            | d :: rest =>
                (putEscapes use place (some c) (some d) steps rest).map fun made =>
                  if use.strips then d :: made else '\\' :: d :: made
      else
        let place := if use.sparesBrackets then place.after second first c else place
        (putEscapes use place first (some c) steps rest).map (c :: ·)

def withEscapes? (use : EscapeUse) (text : ByteText) : Option ByteText :=
  putEscapes use .outside none none text.length text

/-! ## Delimited texts -/

inductive DelimiterMode where
  | plain
  /-- Behind an opening bracket, where a hat can stand. -/
  | opened
  /-- Where a closing bracket stands for itself. -/
  | first
  | bracket
  /-- Behind a bracket in brackets. -/
  | innerOpened
  /-- Inside of an inner bracket with the sign. -/
  | inner (sign : Char)
  /-- Behind that sign in it. -/
  | innerClosing (sign : Char)
deriving DecidableEq, Repr

/-- A text up to a delimiter, and the rest. `found` says that the delimiter was there; if it
was not, the rest begins where the text breaks off. -/
structure Delimited where
  body : ByteText
  rest : ByteText
  found : Bool

/-- One more character in front of a delimited text. -/
def Delimited.add (c : Char) (read : Delimited) : Delimited :=
  { read with body := c :: read.body }

/-- The character opens an inner bracket behind a bracket. -/
def isInnerSign (c : Char) : Bool :=
  c == ':' || c == '.' || c == '='

def DelimiterMode.after (mode : DelimiterMode) (c : Char) : DelimiterMode :=
  let inBracket (opened : Bool) : DelimiterMode :=
    if c = ']' then .plain
    else if c = '[' then .innerOpened
    else if opened && isInnerSign c then .inner c
    else .bracket
  match mode with
  | .plain => .plain
  | .opened =>
      if c = '^' then .first else if c = ']' then .bracket else inBracket false
  | .first => if c = ']' then .bracket else inBracket false
  | .bracket => inBracket false
  | .innerOpened => inBracket true
  | .inner sign => if c = sign then .innerClosing sign else .inner sign
  | .innerClosing sign =>
      if c = ']' then .bracket else if c = '[' then .innerClosing sign else .inner sign

/-- Read up to a delimiter that stands outside of brackets and behind no backslash. A
backslash in front of the delimiter is left out, and in an expression the letter n behind one
is a line feed. `skip` says that the next character belongs to the one before. -/
def delimited (mark : Char) (isExpression : Bool) (mode : DelimiterMode) (skip : Bool) :
    ByteText → Delimited
  | [] => ⟨[], [], false⟩
  | c :: rest =>
      if skip then (delimited mark isExpression mode false rest).add c
      else
        match mode with
        | .plain =>
            if c = '\n' then ⟨[], c :: rest, false⟩
            else if c = mark then ⟨[], rest, true⟩
            else if c = '\\' then
              match rest with
              | [] => ⟨[], [], false⟩
              | d :: _ =>
                  let read := delimited mark isExpression .plain true rest
                  if d = '\n' ∨ (d = 'n' ∧ isExpression) then
                    { read with body := '\n' :: read.body.tail }
                  else if d = mark ∧ (isExpression ∨ d ≠ '&') then read
                  else read.add '\\'
            else if c = '[' ∧ isExpression then
              (delimited mark isExpression .opened false rest).add c
            else (delimited mark isExpression .plain false rest).add c
        | _ =>
            if c = '\n' then ⟨[], c :: rest, false⟩
            else (delimited mark isExpression (mode.after c) false rest).add c

/-! ## Reading -/

/-- A piece of a program, with the way in which it is read. -/
structure Piece where
  origin : Origin
  text : ByteText
  dialect : Dialect

inductive FileUse where
  | reads (name : ByteText)
  | writes (name : ByteText)
deriving DecidableEq, Repr

/-- A place in the pieces of a program. -/
structure Cursor where
  rest : ByteText
  /-- How many characters of the piece are read. -/
  position : Nat
  line : Nat
  origin : Origin
  isFirst : Bool
  dialect : Dialect
  later : List Piece
  /-- Where the blocks begin that are open, the innermost first. -/
  blocks : List Origin
  /-- The program says that lines are printed only on demand. -/
  quiet : Bool
  /-- The files that are used, the latest first. -/
  files : List FileUse

abbrev Reading := ExceptT ProgramFault (StateM Cursor)

def refuse {α : Type} (problem : ProgramProblem) : Reading α := do
  let cursor ← get
  throw (.located cursor.origin cursor.position cursor.line problem)

def takeNext : Reading (Option Char) := do
  let cursor ← get
  match cursor.rest with
  | [] => return none
  | c :: rest =>
      set { cursor with
        rest
        position := cursor.position + 1
        line := if c = '\n' then cursor.line + 1 else cursor.line }
      return some c

def putBack (c : Option Char) : Reading Unit :=
  match c with
  | none => return ()
  | some c =>
      modify fun cursor =>
        { cursor with
          rest := c :: cursor.rest
          position := cursor.position - 1
          line := if c = '\n' then cursor.line - 1 else cursor.line }

def takeSpan (test : Char → Bool) : Reading ByteText := do
  let cursor ← get
  let taken := cursor.rest.takeWhile test
  set { cursor with
    rest := cursor.rest.drop taken.length
    position := cursor.position + taken.length
    line := cursor.line + taken.count '\n' }
  return taken

def isBlank (c : Char) : Bool :=
  c == ' ' || c == '\t'

def takeNonblank : Reading (Option Char) := do
  let _ ← takeSpan isBlank
  takeNext

/-- Take the number that begins with a character, which is zero if that is no digit. -/
def takeNumber (first : Option Char) : Reading Nat := do
  putBack first
  return decimalValue (← takeSpan Char.isDigit)

def takeDelimited (mark : Option Char) (isExpression : Bool) (problem : ProgramProblem) :
    Reading ByteText :=
  match mark with
  | none => refuse problem
  | some mark => do
      let cursor ← get
      let read := delimited mark isExpression .plain false cursor.rest
      let taken := cursor.rest.take (cursor.rest.length - read.rest.length)
      set { cursor with
        rest := read.rest
        position := cursor.position + taken.length
        line := cursor.line + taken.count '\n' }
      if read.found then return read.body else refuse problem

/-- The program follows the rules that are common to all such editors. -/
def isStrict : Reading Bool := do
  return (← get).dialect.strict

/-- The style of expressions without flags. -/
def usualStyle : Reading PatternStyle := do
  let dialect := (← get).dialect
  return ⟨dialect.extended, false, false, dialect.strict⟩

def withEscapes (use : EscapeUse) (text : ByteText) : Reading ByteText :=
  match withEscapes? use text with
  | some made => return made
  | none => refuse .repeatedEscape

/-- The expression that a text writes; an empty one stands for the one used last. -/
def takeExpression (style : PatternStyle) (text : ByteText) : Reading (Option Expression) := do
  if text.isEmpty then
    if style.folds || style.byLine then refuse .emptyWithFlags else return none
  else
    let text ← withEscapes ⟨false, [], ← isStrict⟩ text
    match Expression.read style text with
    | .ok expression => return some expression
    | .error defect => refuse (.pattern defect)

def checkBrackets (expression : Option Expression) : Reading Unit := do
  if expression.any (·.loose) then throw .looseClass

/-- Nothing but the end of the command may follow. -/
def endCommand : Reading Unit := do
  match ← takeNonblank with
  | none => return ()
  | some c =>
      if c = '\x7d' ∨ c = '#' then putBack (some c)
      else if c = '\n' ∨ c = ';' then return ()
      else refuse .extraCharacters

def takeLabel : Reading ByteText := do
  let _ ← takeSpan isBlank
  takeSpan fun c => !isSpace c && c != ';' && c != '\x7d'

/-- Take the name of a file, up to the end of the line. -/
def takeFileName : Reading ByteText := do
  let _ ← takeSpan isBlank
  let name ← takeSpan (· != '\n')
  let _ ← takeNext
  if name.isEmpty then refuse .missingFile else return name

/-- The file is used from the start of the program. -/
def noteFile (use : FileUse) : Reading Unit :=
  modify fun cursor =>
    { cursor with files := if cursor.files.contains use then cursor.files else use :: cursor.files }

/-- Take the name of a file that is written, up to the end of the line. -/
def takeDestination : Reading Destination := do
  let name ← takeFileName
  let isSpecial := !(← isStrict)
  if isSpecial && name == "/dev/stdout".toList then return .out
  else if isSpecial && name == "/dev/stderr".toList then return .err
  else
    noteFile (.writes name)
    return .file name

/-! ## Addresses -/

inductive AddressForm where
  | address (address : Address)
  | after (count : Nat)
  | multiple (base : Nat)

/-- Take the flags behind the expression of an address, of which at most `steps` are read. -/
def takeAddressFlags : (steps : Nat) → PatternStyle → Reading PatternStyle
  | 0, style => return style
  | steps + 1, style => do
      match ← takeNonblank, ← isStrict with
      | some 'I', false => takeAddressFlags steps { style with folds := true }
      | some 'M', false => takeAddressFlags steps { style with byLine := true }
      | c, _ => do
          putBack c
          return style

def takeAddress (c : Option Char) : Reading (Option AddressForm) := do
  let strict ← isStrict
  let expression (mark : Option Char) : Reading (Option AddressForm) := do
    let body ← takeDelimited mark true .openAddress
    let style ← takeAddressFlags (← get).rest.length (← usualStyle)
    let expression ← takeExpression style body
    checkBrackets expression
    return some (.address (.matching expression))
  match c with
  | some '/' => expression (some '/')
  | some '\\' => expression (← takeNext)
  | some '$' => return some (.address .last)
  | some c =>
      if (c = '+' ∨ c = '~') ∧ !strict then
        let number ← takeNumber (← takeNonblank)
        return some (if number = 0 then .address .any
          else if c = '+' then .after number
          else .multiple number)
      else if c.isDigit then
        let number ← takeNumber (some c)
        match ← takeNonblank, strict with
        | some '~', false =>
            let step ← takeNumber (← takeNonblank)
            return some (.address (if step = 0 then .line number else .stepped number step))
        | c, _ =>
            putBack c
            return some (.address (.line number))
      else return none
  | none => return none

/-- Take the addresses of a command that begins with a character, and the next character
behind them. Line zero is the place in front of all lines, where a file can be read. -/
def takeSelection (c : Option Char) : Reading (Selection × Option Char) := do
  match ← takeAddress c with
  | none => return (.every, c)
  | some (.after _) | some (.multiple _) => refuse .relativeFirst
  | some (.address first) => do
      let (selection, c) ← (do
        match ← takeNonblank with
        | some ',' =>
            match ← takeAddress (← takeNonblank) with
            | none => refuse .unexpectedComma
            | some (.address finish) => return (.range first (.address finish), ← takeNonblank)
            | some (.after count) => return (.range first (.after count), ← takeNonblank)
            | some (.multiple base) => return (.range first (.multiple base), ← takeNonblank)
        | c => return (Selection.single first, c) : Reading (Selection × Option Char))
      match first, selection, ← isStrict with
      | .line 0, .range _ (.address (.matching _)), false => return (selection, c)
      | .line 0, .single _, false => if c = some 'r' then return (selection, c) else refuse .lineZero
      | .line 0, _, _ => refuse .lineZero
      | _, _, _ => return (selection, c)

/-! ## Actions -/

inductive ActionForm where
  | action (action : Action)
  | opening
  | closing
  | label (name : ByteText)
  | jump (condition : JumpCondition) (label : ByteText)

/-- The parts of a replacement, where an ampersand and digits behind a backslash stand for
groups. `text` holds the characters of the part that is being read, the latest first, with
its changes of case, and `after` the changes behind it. -/
def replacementParts (strict : Bool) (text : ByteText) (change after : CaseChange) :
    ByteText → List ReplacementPart
  | [] => if text.isEmpty then [] else [⟨text.reverse, none, change⟩]
  | '\\' :: c :: rest =>
      let lasting (all : Option LetterCase) : List ReplacementPart :=
        ⟨text.reverse, none, change⟩ ::
          replacementParts strict [] ⟨none, all⟩ ⟨none, all⟩ rest
      let next (first : LetterCase) : List ReplacementPart :=
        ⟨text.reverse, none, change⟩ ::
          replacementParts strict [] ⟨some first, after.all⟩ after rest
      if c.isDigit then
        ⟨text.reverse, some (c.toNat - '0'.toNat), change⟩ ::
          replacementParts strict [] after after rest
      else if strict then
        ⟨(c :: text).reverse, none, change⟩ :: replacementParts strict [] after after rest
      else if c = 'U' then lasting (some .upper)
      else if c = 'L' then lasting (some .lower)
      else if c = 'E' then lasting none
      else if c = 'u' then next .upper
      else if c = 'l' then next .lower
      else ⟨(c :: text).reverse, none, change⟩ :: replacementParts strict [] after after rest
  | '&' :: rest => ⟨text.reverse, some 0, change⟩ :: replacementParts strict [] after after rest
  | c :: rest => replacementParts strict (c :: text) change after rest

def greatestGroup (parts : List ReplacementPart) : Nat :=
  parts.foldl (fun greatest part => max greatest (part.group.getD 0)) 0

/-- Take the flags of a substitution, of which at most `steps` are read. Its number is zero
as long as none is given. -/
def takeFlags : (steps : Nat) → Substitution → PatternStyle → Reading (Substitution × PatternStyle)
  | 0, s, style => return (s, style)
  | steps + 1, s, style => do
      let dialect := (← get).dialect
      match ← takeNext with
      | none | some '\n' | some ';' => return (s, style)
      | some c =>
          if c = '\x7d' ∨ c = '#' then
            putBack (some c)
            return (s, style)
          else if c = ' ' then takeFlags steps s style
          else if (c = 'i' ∨ c = 'I') ∧ !dialect.strict then
            takeFlags steps s { style with folds := true }
          else if (c = 'm' ∨ c = 'M') ∧ !dialect.strict then
            takeFlags steps s { style with byLine := true }
          else if c = 'e' ∧ !dialect.strict then takeFlags steps { s with evaluates := true } style
          else if c = 'p' then
            if s.prints then refuse .repeatedPrint
            else takeFlags steps { s with prints := true } style
          else if c = 'g' then
            if s.every then refuse .repeatedEvery
            else takeFlags steps { s with every := true } style
          else if c = 'w' then
            if dialect.sandboxed then refuse .sandboxed
            else return ({ s with writes := some (← takeDestination) }, style)
          else if c.isDigit then
            if s.nth ≠ 0 then refuse .repeatedNumber
            else
              let number ← takeNumber (some c)
              if number = 0 then refuse .zeroNumber
              else takeFlags steps { s with nth := number } style
          else if c = '\r' then
            match ← takeNext with
            | some '\n' => return (s, style)
            | _ => refuse .unknownFlag
          else refuse .unknownFlag

def takeSubstitution : Reading Substitution := do
  let dialect := (← get).dialect
  let mark ← takeNext
  let body ← takeDelimited mark true .openSubstitution
  let written ← takeDelimited mark false .openSubstitution
  let asIs : CaseChange := ⟨none, none⟩
  let written ← withEscapes ⟨false, ['&', '\\'], false⟩ written
  let replacement := replacementParts dialect.strict [] asIs asIs written
  let (s, style) ← takeFlags ((← get).rest.length + 1)
    ⟨none, replacement, 0, false, false, false, none⟩ (← usualStyle)
  let expression ← takeExpression style body
  let groups := greatestGroup replacement
  if !dialect.strict && expression.any (·.groups < groups) then refuse (.unknownGroup groups)
  checkBrackets expression
  if s.evaluates && dialect.sandboxed then refuse .sandboxed
  else return { s with expression }

def takeMapping : Reading (List (Char × Char)) := do
  let mark ← takeNext
  let froms ← takeDelimited mark false .openMapping
  let tos ← takeDelimited mark false .openMapping
  let froms ← withEscapes ⟨true, [], false⟩ froms
  let tos ← withEscapes ⟨true, [], false⟩ tos
  if froms.length ≠ tos.length then refuse .unequalMapping
  else
    endCommand
    return froms.zip tos

/-- The text of a line with its backslashes that goes on behind each backslash at the end of
a line, and whether a backslash ends the piece. -/
def takeLines : (steps : Nat) → Reading (ByteText × Bool)
  | 0 => return ([], false)
  | steps + 1 => do
      match ← takeNext with
      | none => return (['\n'], false)
      | some '\n' => return (['\n'], false)
      | some '\\' =>
          match ← takeNext with
          | none => return ([], true)
          | some c =>
              let (text, goesOn) ← takeLines steps
              return ('\\' :: c :: text, goesOn)
      | some c =>
          let (text, goesOn) ← takeLines steps
          return (c :: text, goesOn)

def nextPiece : Reading Bool := do
  let cursor ← get
  match cursor.later with
  | [] => return false
  | piece :: later =>
      set { cursor with
        rest := piece.text, position := 0, line := 1, origin := piece.origin, isFirst := false
        dialect := piece.dialect, later }
      return true

/-- A text that should go on is at its end. -/
def endText : Reading Unit := do
  if ← isStrict then refuse .incomplete

/-- Take lines in this piece and, behind a backslash, in the next ones. The text is not read
any further if a backslash ends the last piece. -/
def takeLinesOfPieces : (pieces : Nat) → Reading (ByteText × Bool)
  | 0 => return ([], false)
  | pieces + 1 => do
      let (text, goesOn) ← takeLines ((← get).rest.length + 1)
      if goesOn then
        if ← nextPiece then
          let (more, isRaw) ← takeLinesOfPieces pieces
          return (text ++ '\\' :: '\n' :: more, isRaw)
        else
          endText
          return (text ++ ['\n'], true)
      else return (text, false)

/-- Take the text of an added line behind its letter. Blanks in front of it are left out
unless a backslash stands in front of them. -/
def takeText : Reading ByteText := do
  let pieces := (← get).later.length + 1
  let lines : Reading ByteText := do
    let (text, isRaw) ← takeLinesOfPieces pieces
    if isRaw then return text else withEscapes ⟨true, [], false⟩ text
  match ← takeNonblank with
  | none => refuse .missingText
  | some '\\' =>
      match ← takeNext with
      | none =>
          if ← nextPiece then lines
          else
            endText
            return []
      | some '\n' => lines
      | c => do
          putBack c
          lines
  | c => do
      if ← isStrict then refuse .missingText
      putBack c
      lines

/-- A version is not newer than the one whose commands are known. -/
def isKnownVersion (version : ByteText) : Bool :=
  let numbers := (version.splitOn '.').map decimal?
  match numbers with
  | some major :: some minor :: _ => major < 4 || (major == 4 && minor ≤ 9)
  | [some major] => major ≤ 4
  | _ => version.isEmpty

/-- Take the number behind a letter, if there is one, and the end of the command. -/
def takeArgument : Reading (Option Nat) := do
  let c ← takeNonblank
  let argument ← if c.any Char.isDigit && !(← isStrict) then some <$> takeNumber c
    else do
      putBack c
      pure none
  endCommand
  return argument

def takeScript : Reading ByteText := do
  let _ ← takeSpan isBlank
  let script ← takeSpan (· != '\n')
  let _ ← takeNext
  return script

/-- The actions that have nothing but their letter. -/
def plainAction? : Char → Option Action
  | '=' => some .printNumber
  | 'd' => some .delete
  | 'D' => some .deleteLine
  | 'F' => some .printName
  | 'g' => some .recall
  | 'G' => some .recallAppend
  | 'h' => some .hold
  | 'H' => some .holdAppend
  | 'n' => some .next
  | 'N' => some .nextAppend
  | 'p' => some .print
  | 'P' => some .printLine
  | 'z' => some .clear
  | 'x' => some .exchange
  | _ => none

/-- Commands that not all such editors know. -/
def isUncommon (letter : Char) : Bool :=
  "FzQRTvWeL".toList.contains letter

/-- Commands for which not all such editors know ranges. -/
def isSingular (letter : Char) : Bool :=
  "=ailr".toList.contains letter

def takeAction (selection : Selection) (letter : Char) : Reading ActionForm := do
  let dialect := (← get).dialect
  let isAddressed : Bool := !selection.isEvery
  let hasTwo : Bool := match selection with
    | .range _ _ => true
    | _ => false
  let isFront : Bool := match selection with
    | .single (.line 0) => true
    | _ => false
  let unlessSandboxed (action : Reading Action) : Reading ActionForm := do
    if dialect.sandboxed then refuse .sandboxed else return .action (← action)
  if dialect.strict && isUncommon letter then refuse (.unknownCommand letter)
  else if hasTwo && (letter == 'q' || letter == 'Q' || dialect.strict && isSingular letter) then
    refuse .twoAddresses
  else
    match letter with
    | '\x7b' =>
        modify fun cursor => { cursor with blocks := cursor.origin :: cursor.blocks }
        return .opening
    | '\x7d' =>
        match (← get).blocks with
        | [] => refuse .unexpectedBrace
        | _ :: blocks =>
            if isAddressed then refuse .addressedBrace
            else
              endCommand
              modify fun cursor => { cursor with blocks }
              return .closing
    | ':' =>
        if isAddressed then refuse .addressedLabel
        else
          let name ← takeLabel
          if name.isEmpty then refuse .missingLabel else return .label name
    | 'b' => return .jump .always (← takeLabel)
    | 't' => return .jump .replaced (← takeLabel)
    | 'T' => return .jump .notReplaced (← takeLabel)
    | 'a' => return .action (.append (← takeText))
    | 'i' => return .action (.insert (← takeText))
    | 'c' => return .action (.change (← takeText))
    | 's' => return .action (.substitute (← takeSubstitution))
    | 'y' => return .action (.map (← takeMapping))
    | 'q' | 'Q' => return .action (.quit (← takeArgument) (letter == 'q'))
    | 'l' => return .action (.list (← takeArgument))
    | 'L' => return .action (.obsolete letter (← takeArgument))
    | 'r' => unlessSandboxed ((if isFront then .copyFile else .readFile) <$> takeFileName)
    | 'R' =>
        unlessSandboxed do
          let name ← takeFileName
          noteFile (.reads name)
          return .readLine name
    | 'w' => unlessSandboxed (.write <$> takeDestination)
    | 'W' => unlessSandboxed (.writeLine <$> takeDestination)
    | 'e' => unlessSandboxed (.evaluate <$> takeScript)
    | _ =>
        match plainAction? letter with
        | none => refuse (.unknownCommand letter)
        | some action =>
            endCommand
            return .action action

/-! ## Programs -/

structure CommandForm where
  selection : Selection
  inverted : Bool
  action : ActionForm

/-- Skip a comment behind its sign. One at the very beginning of a program whose first letter
is n says that lines are printed only on demand. -/
def skipComment : Reading Unit := do
  let cursor ← get
  let text ← takeSpan (· != '\n')
  if cursor.isFirst && cursor.position == 1 && text.head? == some 'n' then
    modify fun cursor => { cursor with quiet := true }

/-- Take the commands of the pieces, of which at most `steps` are read. -/
def takeCommands : (steps : Nat) → Reading (List CommandForm)
  | 0 => return []
  | steps + 1 => do
      let _ ← takeSpan fun c => c == ';' || isSpace c
      match ← takeNext with
      | none => if ← nextPiece then takeCommands steps else return []
      | some c =>
          let (selection, c) ← takeSelection (some c)
          let (inverted, c) ← if c = some '!' then
              match ← takeNonblank with
              | some '!' => refuse .repeatedNegation
              | c => pure (true, c)
            else pure (false, c)
          match c with
          | none => refuse .missingCommand
          | some '#' =>
              if !selection.isEvery then refuse .addressedComment
              else
                skipComment
                takeCommands steps
          | some letter =>
            if letter == 'v' && !(← isStrict) then
              -- This asks for a version of the editor and does nothing.
              if isKnownVersion (← takeLabel) then takeCommands steps else refuse .newerVersion
            else
              let action ← takeAction selection letter
              return ⟨selection.fromFirst, inverted, action⟩ :: (← takeCommands steps)

/-- The place of the end of the block whose commands follow, given the place of the first one
and how many inner blocks are open. -/
def blockFinish (place depth : Nat) : List CommandForm → Nat
  | [] => place
  | command :: rest =>
      match command.action, depth with
      | .opening, depth => blockFinish (place + 1) (depth + 1) rest
      | .closing, 0 => place
      | .closing, depth + 1 => blockFinish (place + 1) depth rest
      | _, depth => blockFinish (place + 1) depth rest

/-- The places of the labels, the latest first. -/
def labelPlaces (place : Nat) (labels : List (ByteText × Nat)) :
    List CommandForm → List (ByteText × Nat)
  | [] => labels
  | command :: rest =>
      match command.action with
      | .label name => labelPlaces (place + 1) ((name, place) :: labels) rest
      | _ => labelPlaces (place + 1) labels rest

/-- The commands with the places that they name, given the place of the first one. -/
def resolve (labels : List (ByteText × Nat)) (finish place : Nat) : List CommandForm → List Command
  | [] => []
  | command :: rest =>
      let action := match command.action with
        | .action action => action
        | .opening => .block (blockFinish (place + 1) 0 rest)
        | .closing => .blockEnd
        | .label name => .label name
        | .jump condition label =>
            .jump condition (if label.isEmpty then finish else (labels.lookup label).getD finish)
      ⟨command.selection, command.inverted, action⟩ :: resolve labels finish (place + 1) rest

def takeProgram (steps : Nat) : Reading Program := do
  let forms ← takeCommands steps
  let cursor ← get
  match cursor.blocks with
  | origin :: _ => throw (.located origin 0 cursor.line .openBrace)
  | [] =>
      let labels := labelPlaces 0 [] forms
      let unknown := forms.reverse.findSome? fun form =>
        match form.action with
        | .jump _ label =>
            if label.isEmpty || (labels.lookup label).isSome then none else some label
        | _ => none
      match unknown with
      | some label => throw (.unknownLabel label)
      | none => return ⟨(resolve labels forms.length 0 forms).toArray, cursor.quiet⟩

structure ProgramReading where
  program : Except ProgramFault Program
  /-- The files that it uses, as far as it is read. -/
  files : List FileUse

def Program.read (pieces : List Piece) : ProgramReading :=
  let steps := total (pieces.map fun piece => piece.text.length + 2) + 1
  let first := pieces.headD ⟨.argument 1, [], ⟨false, false, false⟩⟩
  let start : Cursor :=
    ⟨first.text, 0, 1, first.origin, true, first.dialect, pieces.tail, [], false, []⟩
  let (program, cursor) := (takeProgram steps).run.run start
  ⟨program, cursor.files.reverse⟩

end TypeStub.Tool.LineEditor
