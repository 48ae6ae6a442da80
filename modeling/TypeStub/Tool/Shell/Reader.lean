import TypeStub.Tool.Shell.Command

/-!
Contract: the notation of scripts.

Owns:
- `Source`, a place in a script;
- `readCommand`, which reads one line of a script with all that belongs to it;
- `SyntaxFault`, why a text is no script.

Commands are read as their tokens come. A token is looked up among the reserved words only
where a command can begin.
-/

namespace TypeStub.Tool.Shell

inductive Keyword where
  | negation
  | caseBegin
  | bodyBegin
  | bodyEnd
  | elseIf
  | elseBegin
  | caseEnd
  | ifEnd
  | forBegin
  | ifBegin
  | within
  | thenBegin
  | untilBegin
  | whileBegin
  | groupBegin
  | groupEnd
deriving DecidableEq, Repr

def Keyword.spelling : Keyword → String
  | .negation => "!"
  | .caseBegin => "case"
  | .bodyBegin => "do"
  | .bodyEnd => "done"
  | .elseIf => "elif"
  | .elseBegin => "else"
  | .caseEnd => "esac"
  | .ifEnd => "fi"
  | .forBegin => "for"
  | .ifBegin => "if"
  | .within => "in"
  | .thenBegin => "then"
  | .untilBegin => "until"
  | .whileBegin => "while"
  | .groupBegin => "\x7b"
  | .groupEnd => "\x7d"

def keywords : List Keyword :=
  [.negation, .caseBegin, .bodyBegin, .bodyEnd, .elseIf, .elseBegin, .caseEnd, .ifEnd, .forBegin,
   .ifBegin, .within, .thenBegin, .untilBegin, .whileBegin, .groupBegin, .groupEnd]

inductive Token where
  | endOfText
  | lineEnd
  | semicolon
  | ampersand
  | andThen
  | orElse
  | bar
  | opening
  | closing
  | doubleSemicolon
  | redirection (redirect : Redirect)
  | word (word : Word) (quoted : Bool)
  | keyword (reserved : Keyword)

instance : Inhabited Token :=
  ⟨.endOfText⟩

def Token.name : Token → String
  | .endOfText => "end of file"
  | .lineEnd => "newline"
  | .semicolon => "\";\""
  | .ampersand => "\"&\""
  | .andThen => "\"&&\""
  | .orElse => "\"||\""
  | .bar => "\"|\""
  | .opening => "\"(\""
  | .closing => "\")\""
  | .doubleSemicolon => "\";;\""
  | .redirection _ => "redirection"
  | .word _ _ => "word"
  | .keyword reserved => "\"" ++ reserved.spelling ++ "\""

/-- A list of commands ends in front of the token. -/
def Token.endsList : Token → Bool
  | .endOfText | .closing | .doubleSemicolon => true
  | .keyword reserved =>
      match reserved with
      | .bodyBegin | .bodyEnd | .elseIf | .elseBegin | .caseEnd | .ifEnd | .thenBegin | .groupEnd => true
      | _ => false
  | _ => false

/-- Why a text is no script, in the words for it, and on which line. -/
structure SyntaxFault where
  line : Nat
  problem : String
deriving DecidableEq, Repr

/-- The words that stand for other texts where a command begins. -/
abbrev Aliases :=
  List (ByteText × ByteText)

/-- The text of an alias that stands in front of the rest of a script. -/
structure AliasUse where
  name : ByteText
  /-- How much of the script is left behind the text. -/
  behind : Nat
  /-- The word behind the text can be an alias as well. -/
  endsBlank : Bool
deriving DecidableEq, Repr

structure Source where
  rest : ByteText
  line : Nat
  /-- The lines of documents that are read but stand behind the current line. -/
  hidden : Nat
  last : Token
  /-- The last token is to be read once more. -/
  pushed : Bool
  /-- The text ends before a document does. -/
  isCut : Bool
  aliases : Aliases
  /-- The aliases that are being read, the innermost first. -/
  uses : List AliasUse

abbrev Reading := ExceptT SyntaxFault (StateM Source)

inductive WordMode where
  /-- Up to a blank or a sign. -/
  | plain
  /-- Up to a double quote. -/
  | double
  /-- Up to a closing brace. -/
  | braces (quoted : Bool)
  /-- Up to the end of the text. -/
  | document
  /-- Up to two closing brackets. -/
  | arithmetic
deriving DecidableEq, Repr

/-- The readers that words and commands need of each other. -/
structure Readers where
  /-- Read commands up to a token that ends a list. With `oneLine` a line feed ends it, and
  with `canBeEmpty` the end of the list can stand at once. -/
  list : (oneLine canBeEmpty : Bool) → Reading Command
  parts : (mode : WordMode) → Reading Word
  command : Reading Command

/-! ## Characters -/

def refuse {α : Type} (problem : String) : Reading α := do
  throw ⟨(← get).line, problem⟩

/-- Take characters with their line feeds. -/
def advance (count : Nat) : Reading Unit :=
  modify fun source =>
    let lines := (source.rest.take count).count '\n'
    { source with
      rest := source.rest.drop count
      line := if lines = 0 then source.line else source.line + lines + source.hidden
      hidden := if lines = 0 then source.hidden else 0 }

def peek : Reading (Option Char) := do
  return (← get).rest.head?

/-- Skip line feeds that a backslash takes away. -/
def skipJoins : (steps : Nat) → Reading Unit
  | 0 => return ()
  | steps + 1 => do
      match (← get).rest with
      | '\\' :: '\n' :: _ =>
          advance 2
          skipJoins steps
      | _ => return ()

/-- The next character behind line feeds that a backslash takes away. -/
def peekJoined : Reading (Option Char) := do
  skipJoins (← get).rest.length
  peek

def takeSpan (test : Char → Bool) : Reading ByteText := do
  let taken := (← get).rest.takeWhile test
  advance taken.length
  return taken

/-! ## Parts of words -/

def isSpecialParameter (c : Char) : Bool :=
  c == '@' || c == '*' || c == '#' || c == '?' || c == '-' || c == '$' || c == '!'

/-- Take what stands behind the name of a parameter in braces. -/
def takeUse (readers : Readers) (quoted : Bool) : Reading ParameterUse := do
  let word : Reading Word := readers.parts (.braces quoted)
  let emptyToo ← do
    if (← peekJoined) = some ':' then
      advance 1
      pure true
    else pure false
  match ← peekJoined with
  | some '-' =>
      advance 1
      return .fallback emptyToo (← word)
  | some '+' =>
      advance 1
      return .alternative emptyToo (← word)
  | some '=' =>
      advance 1
      return .assign emptyToo (← word)
  | some '?' =>
      advance 1
      return .demand emptyToo (← word)
  | some c =>
      if (c = '%' ∨ c = '#') ∧ !emptyToo then
        advance 1
        let longest : Bool := (← peekJoined) == some c
        if longest then advance 1
        return .trim (c == '%') longest (← readers.parts (.braces false))
      else return .value
  | none => return .value

def takeBracedName : Reading ByteText := do
  match ← peekJoined with
  | none => return []
  | some c =>
      if startsName c then takeSpan inName
      else if c.isDigit then takeSpan Char.isDigit
      else if isSpecialParameter c then
        advance 1
        return [c]
      else return []

def takeBraced (readers : Readers) (quoted : Bool) : Reading WordPart := do
  let finish (part : WordPart) : Reading WordPart := do
    match ← peek with
    | some '\x7d' =>
        advance 1
        return part
    | none => refuse (if quoted then "Unterminated quoted string" else "Missing '\x7d'")
    | some _ =>
        let _ ← readers.parts (.braces quoted)
        advance 1
        return .malformed
  let rest := (← get).rest
  match rest with
  | '#' :: '\x7d' :: _ =>
      advance 1
      finish (.parameter ['#'] .value quoted)
  | '#' :: c :: more =>
      let isLength : Bool := inName c || (isSpecialParameter c && more.head? == some '\x7d')
      if isLength then
        advance 1
        let name ← takeBracedName
        finish (.parameter name .length quoted)
      else
        advance 1
        let use ← takeUse readers quoted
        finish (.parameter ['#'] use quoted)
  | _ =>
      let name ← takeBracedName
      if name.isEmpty then finish .malformed
      else
        let use ← takeUse readers quoted
        finish (.parameter name use quoted)

/-- Take the text between backquotes, where a backslash keeps its meaning but in front of
some signs. -/
def takeBackquoted (quoted : Bool) : (steps : Nat) → ByteText → Reading ByteText
  | 0, _ => refuse "EOF in backquote substitution"
  | steps + 1, taken => do
      match (← get).rest with
      | [] => refuse "EOF in backquote substitution"
      | '\x60' :: _ =>
          advance 1
          return taken.reverse
      | '\\' :: '\n' :: _ =>
          advance 2
          takeBackquoted quoted steps taken
      | '\\' :: c :: _ =>
          advance 2
          if c = '\\' ∨ c = '\x60' ∨ c = '$' ∨ (c = '"' ∧ quoted) then
            takeBackquoted quoted steps (c :: taken)
          else takeBackquoted quoted steps (c :: '\\' :: taken)
      | c :: _ =>
          advance 1
          takeBackquoted quoted steps (c :: taken)

def inText {α : Type} (text : ByteText) (read : Reading α) : Reading α := do
  let outer ← get
  set { outer with rest := text, hidden := 0, last := .endOfText, pushed := false }
  let result ← read
  set outer
  return result

def takeSubstituted (readers : Readers) : Reading Command := do
  let outer ← get
  set { outer with pushed := false }
  let command ← readers.list false true
  let inner ← get
  match inner.last with
  | .closing =>
      set { inner with last := outer.last, pushed := outer.pushed }
      return command
  | other => refuse (other.name ++ " unexpected (expecting \")\")")

def takeDollar (readers : Readers) (quoted : Bool) : Reading WordPart := do
  match ← peekJoined with
  | some '(' =>
      advance 1
      if (← peekJoined) = some '(' then
        advance 1
        let expression ← readers.parts .arithmetic
        return .number expression quoted
      else return .output (← takeSubstituted readers) quoted
  | some '\x7b' =>
      advance 1
      takeBraced readers quoted
  | some c =>
      if startsName c then return .parameter (← takeSpan inName) .value quoted
      else if c.isDigit || isSpecialParameter c then
        advance 1
        return .parameter [c] .value quoted
      else return .byte '$' quoted
  | none => return .byte '$' quoted

/-- Take a text between single quotes, behind the first one. -/
def takeSingleQuoted : Reading Word := do
  let rest := (← get).rest
  let text := rest.takeWhile (· ≠ '\'')
  if text.length = rest.length then
    advance text.length
    refuse "Unterminated quoted string"
  else
    advance (text.length + 1)
    return text.map fun c => .byte c true

def endsWord (c : Char) : Bool :=
  c == ' ' || c == '\t' || c == '\n' || c == ';' || c == '&' || c == '|' || c == '(' || c == ')' ||
    c == '<' || c == '>'

/-- A backslash in front of the character means something inside of quotes. -/
def isEscapable (mode : WordMode) (c : Char) : Bool :=
  c == '$' || c == '\x60' || c == '\\' || c == '\n' ||
    match mode with
    | .double => c == '"'
    | .braces true => c == '"' || c == '\x7d'
    | _ => false

/-- Read the parts of a word, of which at most `steps` are read. `depth` counts the brackets
that are open in an expression of numbers, and the parts read so far have the latest first. -/
def takeParts (readers : Readers) (mode : WordMode) :
    (steps depth : Nat) → (parts : Word) → Reading Word
  | 0, _, parts => return parts.reverse
  | steps + 1, depth, parts => do
      let more (added : Word) : Reading Word :=
        takeParts readers mode steps depth (added.reverse ++ parts)
      let quoted : Bool := match mode with
        | .plain | .braces false => false
        | .double | .braces true | .document | .arithmetic => true
      match (← get).rest with
      | [] =>
          match mode with
          | .plain | .document => return parts.reverse
          | .double => refuse "Unterminated quoted string"
          | .braces inQuotes =>
              refuse (if inQuotes then "Unterminated quoted string" else "Missing '\x7d'")
          | .arithmetic => refuse "Missing '))'"
      | '\\' :: '\n' :: _ =>
          advance 2
          more []
      | ['\\'] =>
          advance 1
          more [.byte '\\' true]
      | '\\' :: c :: _ =>
          advance 2
          if quoted && !isEscapable mode c then more [.byte '\\' true, .byte c true]
          else more [.byte c true]
      | c :: rest =>
          if mode = WordMode.plain ∧ endsWord c then return parts.reverse
          else if mode = WordMode.double ∧ c = '"' then
            advance 1
            return parts.reverse
          else if (mode = WordMode.braces true ∨ mode = WordMode.braces false) ∧ c = '\x7d' then
            return parts.reverse
          else if mode = WordMode.arithmetic ∧ c = '(' then
            advance 1
            takeParts readers mode steps (depth + 1) (.byte c true :: parts)
          else if mode = WordMode.arithmetic ∧ c = ')' then
            match depth, rest with
            | depth + 1, _ =>
                advance 1
                takeParts readers mode steps depth (.byte c true :: parts)
            | 0, ')' :: _ =>
                advance 2
                return parts.reverse
            | 0, _ =>
                advance 1
                more [.byte c true]
          else if c = '$' then
            advance 1
            more [← takeDollar readers quoted]
          else if c = '\x60' then
            advance 1
            let text ← takeBackquoted (mode == .double) ((← get).rest.length + 1) []
            let command ← inText text (readers.list false true)
            more [.output command quoted]
          else if c = '\'' ∧ !quoted then
            advance 1
            more (.mark :: (← takeSingleQuoted))
          else if c = '"' ∧ (!quoted ∨ mode = WordMode.braces true) then
            advance 1
            match ← readers.parts .double with
            | [.parameter ['@'] .value true] => more [.parameter ['@'] .value true]
            | parts => more (.mark :: parts)
          else if c = '"' ∧ mode = WordMode.arithmetic then
            advance 1
            more []
          else
            advance 1
            more [.byte c quoted]

def takeWord (readers : Readers) (mode : WordMode) : Reading Word := do
  takeParts readers mode ((← get).rest.length + 1) 0 []

/-! ## Tokens -/

/-- The text of a word behind quotes are removed, as far as it stands for itself. -/
def Word.plainText (word : Word) : ByteText :=
  word.filterMap fun
    | .byte c _ => some c
    | _ => none

def documentLines (strips : Bool) (mark : ByteText) :
    List ByteText → List ByteText × List ByteText
  | [] => ([], [])
  | line :: rest =>
      let line := if strips then line.dropWhile (· == '\t') else line
      if line = mark ∨ line = mark ++ ['\n'] then ([], rest)
      else
        let (lines, behind) := documentLines strips mark rest
        (line :: lines, behind)

/-- Take the document that begins behind the current line. -/
def takeDocument (readers : Readers) (descriptor : Nat) (strips : Bool) (word : Word)
    (quoted : Bool) : Reading Redirect := do
  let source ← get
  let current := source.rest.takeWhile (· ≠ '\n')
  let behind := source.rest.drop (current.length + 1)
  let all := lineTexts behind
  let (lines, rest) := documentLines strips word.plainText all
  let text := lines.flatten
  let taken := all.length - rest.length
  let expanded ← if quoted then pure (text.map fun c => WordPart.byte c true)
    else
      modify fun source => { source with line := source.line + source.hidden + 1 }
      inText text (readers.parts .document)
  set { source with
    rest := current ++ (if source.rest.length = current.length then [] else '\n' :: rest.flatten)
    hidden := source.hidden + taken
    isCut := source.isCut || lines.length = taken }
  return .document descriptor expanded

inductive RedirectSign where
  | file (mode : OpenMode)
  | copy
  | document (strips : Bool)

def takeRedirectSign : Reading RedirectSign := do
  let first ← peek
  advance 1
  let second ← peekJoined
  if first = some '>' then
    match second with
    | some '>' =>
        advance 1
        return .file .append
    | some '|' =>
        advance 1
        return .file .overwrite
    | some '&' =>
        advance 1
        return .copy
    | _ => return .file .write
  else
    match second with
    | some '<' =>
        advance 1
        if (← peekJoined) = some '-' then
          advance 1
          return .document true
        else return .document false
    | some '&' =>
        advance 1
        return .copy
    | some '>' =>
        advance 1
        return .file .readWrite
    | _ => return .file .read

def skipBlanks : (steps : Nat) → Reading Unit
  | 0 => return ()
  | steps + 1 => do
      skipJoins (← get).rest.length
      match ← peek with
      | some ' ' | some '\t' =>
          advance 1
          skipBlanks steps
      | some '#' =>
          let _ ← takeSpan (· ≠ '\n')
          return ()
      | _ => return ()

def takeSign (sign : Char) (single double : Token) : Reading Token := do
  advance 1
  if (← peekJoined) = some sign then
    advance 1
    return double
  else return single

def remember (token : Token) : Reading Token := do
  modify fun source => { source with last := token }
  return token

/-- Take the next token as it stands. -/
def lexToken (readers : Readers) : Reading Token := do
  skipBlanks ((← get).rest.length + 1)
  match ← peek with
  | none => return .endOfText
  | some '\n' =>
      advance 1
      return .lineEnd
  | some '&' => takeSign '&' .ampersand .andThen
  | some '|' => takeSign '|' .bar .orElse
  | some ';' => takeSign ';' .semicolon .doubleSemicolon
  | some '(' =>
      advance 1
      return .opening
  | some ')' =>
      advance 1
      return .closing
  | some c =>
      let word ← if c = '<' ∨ c = '>' then pure [] else takeWord readers .plain
      let next ← peek
      let descriptor? : Option Nat := match word with
        | [] => some (if next = some '<' then 0 else 1)
        | [.byte digit false] => if digit.isDigit then some (digit.toNat - '0'.toNat) else none
        | _ => none
      match descriptor? with
      | some descriptor =>
          if next = some '<' ∨ next = some '>' then
            let sign ← takeRedirectSign
            let isDocument : Bool := match sign with
              | .document _ => true
              | _ => false
            skipBlanks ((← get).rest.length + 1)
            match ← peek with
            | none => let _ ← remember .endOfText; refuse "end of file unexpected"
            | some c =>
                if c = '\n' then refuse "newline unexpected"
                else if c = '<' ∨ c = '>' then refuse "redirection unexpected"
                else if endsWord c then
                  let token ← match c with
                    | '&' => takeSign '&' .ampersand .andThen
                    | '|' => takeSign '|' .bar .orElse
                    | ';' => takeSign ';' .semicolon .doubleSemicolon
                    | '(' => pure .opening
                    | _ => pure .closing
                  refuse (token.name ++ " unexpected")
                else
                  let name ← takeWord readers .plain
                  let quoted : Bool := name.any fun
                    | .mark => true
                    | .byte _ quoted => quoted
                    | _ => false
                  match sign with
                  | .file mode => return .redirection (.file descriptor mode name)
                  | .copy => return .redirection (.copy descriptor name)
                  | .document strips =>
                      if isDocument then
                        return .redirection
                          (← takeDocument readers descriptor strips name quoted)
                      else return .lineEnd
          else return .word word false
      | none =>
          let quoted : Bool := word.any fun
            | .mark => true
            | .byte _ quoted => quoted
            | _ => false
          return .word word quoted

def skipLines (readers : Readers) : (steps : Nat) → Token → Reading Token
  | steps + 1, .lineEnd => do skipLines readers steps (← lexToken readers)
  | _, token => return token

/-- Forget the aliases that are read to their ends. -/
def dropUses : Reading Unit :=
  modify fun source =>
    { source with uses := source.uses.filter fun use => use.behind ≤ source.rest.length }

/-- The text for a word that is an alias, unless that is being read. -/
def alias? (text : ByteText) : Reading (Option ByteText) := do
  dropUses
  let source ← get
  if source.uses.any (·.name = text) then return none else return source.aliases.lookup text

def enterAlias (name text : ByteText) : Reading Unit :=
  modify fun source =>
    let endsBlank : Bool := text.getLast?.any fun c => c == ' ' || c == '\t'
    let use : AliasUse := ⟨name, source.rest.length, endsBlank⟩
    if text.isEmpty then source
    else { source with rest := text ++ source.rest, uses := use :: source.uses }

/-- Take the next token behind line feeds, if those are to be skipped. The answer also says
whether it stands behind an alias that lets it be one too. -/
def takeBare (readers : Readers) (skips : Bool) : Reading (Token × Bool) := do
  let source ← get
  let token ← if source.pushed then
      set { source with pushed := false }
      pure source.last
    else lexToken readers
  let token ← if skips then skipLines readers ((← get).rest.length + 1) token else pure token
  let left := (← get).rest.length
  return (token, source.uses.any fun use => use.endsBlank && left < use.behind)

/-- Take the next token. `skips` says that line feeds do not count here, `looksUp` that
reserved words do and `replaces` that aliases do, of which at most `steps` are replaced. -/
def takeReplaced (readers : Readers) (skips looksUp replaces : Bool) : (steps : Nat) →
    Reading Token
  | 0 => return .endOfText
  | steps + 1 => do
      let (token, behindAlias) ← takeBare readers skips
      let replaces := replaces || behindAlias
      match token with
      | .word word false =>
          match word.bare? with
          | none => remember token
          | some text =>
              match keywords.find? fun keyword => looksUp && keyword.spelling.toList == text with
              | some keyword => remember (.keyword keyword)
              | none =>
                  let value ← if replaces then alias? text else pure none
                  match value with
                  | some value =>
                      enterAlias text value
                      takeReplaced readers skips looksUp replaces steps
                  | none => remember token
      | _ => remember token

/-- How many tokens can follow, with those of aliases. -/
def tokenSteps : Reading Nat := do
  let source ← get
  return (source.rest.length + 2) *
    (1 + total (source.aliases.map fun (_, text) => text.length + 1))

/-- Take the next token. `skips` says that line feeds do not count here, and `looksUp` that
reserved words and aliases do. -/
def takeToken (readers : Readers) (skips looksUp : Bool) : Reading Token := do
  takeReplaced readers skips looksUp looksUp (← tokenSteps)

/-- Let the last token be read once more. -/
def pushToken : Reading Unit :=
  modify fun source => { source with pushed := true }

/-- The last token must not stand here. -/
def unexpected {α : Type} : Reading α := do
  refuse ((← get).last.name ++ " unexpected")

/-- The last token must not stand here, but another one. -/
def expecting {α : Type} (token : Token) : Reading α := do
  refuse ((← get).last.name ++ " unexpected (expecting " ++ token.name ++ ")")

def Token.isKeyword (keyword : Keyword) : Token → Bool
  | .keyword other => other == keyword
  | _ => false

/-- Take a reserved word. -/
def demand (readers : Readers) (skips looksUp : Bool) (keyword : Keyword) : Reading Unit := do
  let token ← takeToken readers skips looksUp
  if token.isKeyword keyword then return () else expecting (.keyword keyword)

/-! ## Commands -/

def takeRedirects (readers : Readers) : (steps : Nat) → Reading (List Redirect)
  | 0 => return []
  | steps + 1 => do
      match ← takeToken readers false true with
      | .redirection redirect => return redirect :: (← takeRedirects readers steps)
      | _ =>
          pushToken
          return []

/-- A simple command as far as it is read, with the latest first. -/
structure SimpleForm where
  assignments : List (ByteText × Word)
  words : List Word
  redirects : List Redirect

/-- The commands whose names cannot be those of functions. -/
def specialNames : List String :=
  [".", ":", "break", "continue", "eval", "exec", "exit", "export", "readonly", "return", "set",
   "shift", "times", "trap", "unset"]

/-- Take a simple command or the definition of a function. -/
def takeSimple (readers : Readers) (line : Nat) : (steps : Nat) → SimpleForm → Reading Command
  | 0, _ => return .nothing
  | steps + 1, form => do
      match ← takeReplaced readers false false form.words.isEmpty (← tokenSteps) with
      | .word word _ =>
          match form.words, word.assignment? with
          | [], some assignment =>
              takeSimple readers line steps
                { form with assignments := assignment :: form.assignments }
          | _, _ => takeSimple readers line steps { form with words := word :: form.words }
      | .redirection redirect =>
          takeSimple readers line steps { form with redirects := redirect :: form.redirects }
      | token =>
          match token, form with
          | .opening, ⟨[], [word], []⟩ =>
              match ← takeToken readers false false with
              | .closing =>
                  let name := word.bare?.getD []
                  if !isName name || specialNames.contains (String.ofList name) then
                    refuse "Bad function name"
                  else
                    let _ ← takeToken readers true true
                    pushToken
                    return .definition name (← readers.command)
              | _ => expecting .closing
          | _, _ =>
              pushToken
              return .simple line form.assignments.reverse form.words.reverse
                form.redirects.reverse

/-- Take the branches of a condition behind its first word. -/
def takeBranches (readers : Readers) : (steps : Nat) → Reading Command
  | 0 => return .nothing
  | steps + 1 => do
      let test ← readers.list false false
      demand readers false false .thenBegin
      let positive ← readers.list false false
      let token ← takeToken readers false false
      if token.isKeyword .elseIf then return .conditional test positive (← takeBranches readers steps)
      else if token.isKeyword .elseBegin then
        return .conditional test positive (← readers.list false false)
      else
        pushToken
        return .conditional test positive .nothing

def takeWords (readers : Readers) : (steps : Nat) → Reading (List Word)
  | 0 => return []
  | steps + 1 => do
      match ← takeToken readers false false with
      | .word word _ => return word :: (← takeWords readers steps)
      | _ => return []

def Token.asWord : Token → Word
  | .word parts _ => parts
  | .keyword reserved => reserved.spelling.toList.map fun c => .byte c false
  | _ => []

/-- Take the patterns of a case up to its closing bracket, behind the first one. -/
def takePatterns (readers : Readers) : (steps : Nat) → List Word → Reading (List Word)
  | 0, patterns => return patterns
  | steps + 1, patterns => do
      match ← takeToken readers false false with
      | .bar => do
          let token ← takeToken readers false false
          takePatterns readers steps (patterns ++ [token.asWord])
      | .closing => return patterns
      | _ => expecting .closing

def takeCases (readers : Readers) : (steps : Nat) → Reading (List (List Word × Command))
  | 0 => return []
  | steps + 1 => do
      let token ← takeToken readers true true
      if token.isKeyword .caseEnd then return []
      else
        let token ← match token with
          | .opening => takeToken readers false false
          | _ => pure token
        let patterns ← takePatterns readers (← tokenSteps) [token.asWord]
        let body ← readers.list false true
        match ← takeToken readers true true with
        | .doubleSemicolon => return (patterns, body) :: (← takeCases readers steps)
        | token =>
            if token.isKeyword .caseEnd then return [(patterns, body)]
            else expecting .doubleSemicolon

def allArguments : Word :=
  [.parameter ['@'] .value true]

/-- Take the loop over words behind its first word. -/
def takeEach (readers : Readers) (line : Nat) : Reading Command := do
  let token ← takeToken readers false false
  match token with
  | .word word false =>
      let name := word.bare?.getD []
      if !isName name then refuse "Bad for loop variable"
      else
        let token ← takeToken readers true true
        let words ← if token.isKeyword .within then
            let words ← takeWords readers (← tokenSteps)
            match (← get).last with
            | .lineEnd | .semicolon => pure words
            | _ => unexpected
          else
            match token with
            | .semicolon => pure [allArguments]
            | _ =>
                pushToken
                pure [allArguments]
        demand readers true true .bodyBegin
        return .each line name words (← readers.list false false)
  | _ => refuse "Bad for loop variable"

/-- Take the choice between patterns behind its first word. -/
def takeChoice (readers : Readers) (line : Nat) : Reading Command := do
  match ← takeToken readers false false with
  | .word word _ =>
      demand readers true true .within
      return .choice line word (← takeCases readers (← tokenSteps))
  | _ => expecting (.word [] false)

/-- Take the token that ends a command, and the redirections behind it. -/
def finishCommand (readers : Readers) (finish : Token) (body : Command) : Reading Command := do
  let token ← takeToken readers false false
  if token.name ≠ finish.name then expecting finish
  else
    let redirects ← takeRedirects readers (← tokenSteps)
    return if redirects.isEmpty then body else .redirected body redirects

def takeCommand (readers : Readers) : Reading Command := do
  let token ← takeToken readers false false
  let line := (← get).line
  match token with
  | .keyword .ifBegin =>
      finishCommand readers (.keyword .ifEnd)
        (← takeBranches readers (← tokenSteps))
  | .keyword .whileBegin =>
      let test ← readers.list false false
      demand readers false false .bodyBegin
      finishCommand readers (.keyword .bodyEnd) (.loop true test (← readers.list false false))
  | .keyword .untilBegin =>
      let test ← readers.list false false
      demand readers false false .bodyBegin
      finishCommand readers (.keyword .bodyEnd) (.loop false test (← readers.list false false))
  | .keyword .forBegin => finishCommand readers (.keyword .bodyEnd) (← takeEach readers line)
  | .keyword .caseBegin =>
      let body ← takeChoice readers line
      let redirects ← takeRedirects readers (← tokenSteps)
      return if redirects.isEmpty then body else .redirected body redirects
  | .opening => finishCommand readers .closing (.subshell (← readers.list false false))
  | .keyword .groupBegin =>
      finishCommand readers (.keyword .groupEnd) (← readers.list false false)
  | .word _ _ | .redirection _ =>
      pushToken
      takeSimple readers line (← tokenSteps) ⟨[], [], []⟩
  | _ => unexpected

/-- Take further stages of a pipeline, as long as there are bars. -/
def takeStages (readers : Readers) : (steps : Nat) → Reading (List Command)
  | 0 => return []
  | steps + 1 => do
      match ← takeToken readers false false with
      | .bar =>
          let _ ← takeToken readers true true
          pushToken
          let stage ← readers.command
          return stage :: (← takeStages readers steps)
      | _ =>
          pushToken
          return []

def takePipeline (readers : Readers) : Reading Command := do
  let token ← takeToken readers false false
  let negated := token.isKeyword .negation
  if negated then
    let _ ← takeToken readers false true
  pushToken
  let first ← readers.command
  let stages ← takeStages readers (← tokenSteps)
  let whole : Command := if stages.isEmpty then first else .pipeline (first :: stages)
  return if negated then .negation whole else whole

/-- Take further pipelines, as long as conditions join them. -/
def takeConditions (readers : Readers) : (steps : Nat) → Command → Reading Command
  | 0, before => return before
  | steps + 1, before => do
      match ← takeToken readers false false with
      | .andThen =>
          let _ ← takeToken readers true true
          pushToken
          takeConditions readers steps (.both before (← takePipeline readers))
      | .orElse =>
          let _ ← takeToken readers true true
          pushToken
          takeConditions readers steps (.either before (← takePipeline readers))
      | _ =>
          pushToken
          return before

def Command.andThen (before : Option Command) (next : Command) : Command :=
  match before with
  | none => next
  | some before => .sequence before next

/-- Take commands up to a token that ends a list, where `before` is read already and
`canEnd` says that such a token can stand here. -/
def takeList (readers : Readers) (oneLine : Bool) :
    (steps : Nat) → (canEnd : Bool) → (before : Option Command) → Reading Command
  | 0, _, before => return before.getD .nothing
  | steps + 1, canEnd, before => do
      let token ← takeToken readers (!oneLine) true
      match token with
      | .lineEnd => return before.getD .nothing
      | .endOfText =>
          pushToken
          return before.getD .nothing
      | _ =>
          pushToken
          if canEnd && !oneLine && token.endsList then return before.getD .nothing
          else
            let pipeline ← takePipeline readers
            let next ← takeConditions readers (← tokenSteps) pipeline
            match ← takeToken readers false false with
            | .ampersand =>
                takeList readers oneLine steps true (some (.andThen before (.background next)))
            | .semicolon => takeList readers oneLine steps true (some (.andThen before next))
            | .lineEnd =>
                pushToken
                takeList readers oneLine steps true (some (.andThen before next))
            | .endOfText =>
                pushToken
                return .andThen before next
            | _ =>
                if oneLine then unexpected
                else
                  pushToken
                  return .andThen before next

def readers : (depth : Nat) → Readers
  | 0 =>
      { list := fun _ _ => refuse "Too deep"
        parts := fun _ => refuse "Too deep"
        command := refuse "Too deep" }
  | depth + 1 =>
      { list := fun oneLine canBeEmpty => do
          takeList (readers depth) oneLine (← tokenSteps) canBeEmpty none
        parts := fun mode => takeWord (readers depth) mode
        command := takeCommand (readers depth) }

def Source.ofText (text : ByteText) (line : Nat) : Source :=
  { rest := text, line, hidden := 0, last := .endOfText, pushed := false, isCut := false
    aliases := [], uses := [] }

/-- Read a text as what stands between double quotes, where those stand for themselves. -/
def readDocument (text : ByteText) : Except SyntaxFault Word :=
  let (outcome, _) := ((readers (text.length + 2)).parts .document).run.run (.ofText text 1)
  outcome

/-- Read one line of commands with all that belongs to it; nothing at the end of the text. -/
def readCommand : Reading (Option Command) := do
  let source ← get
  if source.rest.isEmpty && !source.pushed then return none
  else
    set { source with pushed := false, isCut := false }
    let command ← (readers (← tokenSteps)).list true false
    modify fun source => { source with pushed := false }
    return some command

end TypeStub.Tool.Shell
