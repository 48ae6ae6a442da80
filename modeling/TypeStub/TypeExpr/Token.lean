import TypeStub.Text.Blank

/-!
Contract: the tokens of a type expression.

Owns:
- `Token`, and `Token.ofText`, which divides any text into tokens;
- `Token.text`, the characters that a token stands for.

Words are maximal runs of letters and dots, so digits, underscores and brackets are tokens
of their own. White space only separates.
-/

namespace TypeStub

inductive Token where
  /-- A run of letters and dots other than the word `or`. -/
  | word (letters : List Char)
  | opening
  | closing
  /-- The sign between alternatives, written `|` or `or`. -/
  | bar
  | other (character : Char)
deriving DecidableEq, Repr

namespace Token

def isWordChar (c : Char) : Bool :=
  c.isAlpha || c == '.'

/-- The token of a maximal run of word characters; an empty run is no token. -/
def ofRun : List Char → List Token
  | [] => []
  | ['o', 'r'] => [.bar]
  | run => [.word run]

/-- The token of a character outside words; white space is no token. -/
def ofMark (c : Char) : List Token :=
  if c = '(' then [.opening]
  else if c = ')' then [.closing]
  else if c = '|' then [.bar]
  else if Text.isBlank c then []
  else [.other c]

/-- The run of word characters that a text begins with, and the tokens after that run. -/
def scan : List Char → List Char × List Token
  | [] => ([], [])
  | c :: rest =>
      let scanned := scan rest
      if isWordChar c then (c :: scanned.1, scanned.2)
      else ([], ofMark c ++ ofRun scanned.1 ++ scanned.2)

def ofText (text : List Char) : List Token :=
  ofRun (scan text).1 ++ (scan text).2

def text : Token → List Char
  | .word letters => letters
  | .opening => ['(']
  | .closing => [')']
  | .bar => ['|']
  | .other character => [character]

end Token

end TypeStub
