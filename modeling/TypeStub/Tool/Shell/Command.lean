import TypeStub.Tool

/-!
Contract: the commands of scripts.

Owns:
- `WordPart` and `ParameterUse`, what words are made of before they are expanded;
- `Redirect`, a change of a stream;
- `Command`, a command with all that it holds.

A word is a list of parts. Its bytes keep whether they were quoted, since only unquoted ones
have a meaning in patterns.
-/

namespace TypeStub.Tool.Shell

inductive OpenMode where
  | read
  | write
  /-- Written even if it is there and that is not wanted. -/
  | overwrite
  | append
  | readWrite
deriving DecidableEq, Repr

mutual

inductive WordPart where
  | byte (c : Char) (quoted : Bool)
  /-- Quotes stand here, so that there is a field even if nothing is between them. -/
  | mark
  | parameter (name : ByteText) (use : ParameterUse) (quoted : Bool)
  | output (command : Command) (quoted : Bool)
  | number (expression : List WordPart) (quoted : Bool)
  /-- A parameter that is written in a way that means nothing. -/
  | malformed

/-- What is taken from a parameter. With `emptyToo` an empty value counts as none. -/
inductive ParameterUse where
  | value
  | length
  | fallback (emptyToo : Bool) (word : List WordPart)
  | assign (emptyToo : Bool) (word : List WordPart)
  /-- The value, or else a complaint. -/
  | demand (emptyToo : Bool) (word : List WordPart)
  | alternative (emptyToo : Bool) (word : List WordPart)
  /-- The value without a part at one of its ends that fits a pattern. -/
  | trim (atEnd longest : Bool) (pattern : List WordPart)

inductive Redirect where
  | file (descriptor : Nat) (mode : OpenMode) (name : List WordPart)
  /-- The stream becomes one with another one, or is closed. -/
  | copy (descriptor : Nat) (source : List WordPart)
  | document (descriptor : Nat) (text : List WordPart)

inductive Command where
  | nothing
  | simple (line : Nat) (assignments : List (ByteText × List WordPart))
      (words : List (List WordPart)) (redirects : List Redirect)
  | pipeline (stages : List Command)
  | negation (body : Command)
  | both (first second : Command)
  | either (first second : Command)
  | sequence (first second : Command)
  | background (body : Command)
  | subshell (body : Command)
  | redirected (body : Command) (redirects : List Redirect)
  | conditional (test positive negative : Command)
  /-- The body is repeated as long as the test has the given result. -/
  | loop (result : Bool) (test body : Command)
  | each (line : Nat) (name : ByteText) (words : List (List WordPart)) (body : Command)
  | choice (line : Nat) (word : List WordPart) (cases : List (List (List WordPart) × Command))
  | definition (name : ByteText) (body : Command)

end

/-- A part of a script before it is expanded. -/
abbrev Word :=
  List WordPart

instance : Inhabited Command :=
  ⟨.nothing⟩

def startsName (c : Char) : Bool :=
  c.isAlpha || c == '_'

def inName (c : Char) : Bool :=
  c.isAlphanum || c == '_'

def isName (text : ByteText) : Bool :=
  text.head?.any startsName && text.all inName

/-- The bytes of a part that stands for itself outside of quotes. -/
def WordPart.bare? : WordPart → Option Char
  | .byte c false => some c
  | _ => none

/-- The text of a word that has no quotes and nothing to expand. -/
def Word.bare? (word : Word) : Option ByteText :=
  word.mapM WordPart.bare?

def Word.assignment? (word : Word) : Option (ByteText × Word) :=
  let name := (word.map WordPart.bare?).takeWhile fun c => c.any inName
  let text := name.filterMap id
  match word.drop name.length with
  | .byte '=' false :: rest => if isName text then some (text, rest) else none
  | _ => none

end TypeStub.Tool.Shell
