import TypeStub.Text.Line

/-!
Contract: documentation as a string literal of a stub.

Owns:
- the escapes inside a literal between triple quotes;
- `Docstring.literal`, the literal of a text at a given indentation.

A backslash is written twice. A quote gets a backslash where it could end the literal: in
each run of three, taken from the left, and at the very end of the text.
-/

namespace TypeStub.Docstring

open Text

def doubleBackslashes (text : List Char) : List Char :=
  text.flatMap fun c => if c = '\\' then ['\\', '\\'] else [c]

/-- The text with a backslash before each quote of three in a row, taken from the left. -/
def escapeTriples : List Char → List Char
  | '"' :: '"' :: '"' :: rest => '\\' :: '"' :: '\\' :: '"' :: '\\' :: '"' :: escapeTriples rest
  | c :: rest => c :: escapeTriples rest
  | [] => []

/-- What stands between the delimiters of the literal, before indentation. -/
def escape (text : List Char) : List Char :=
  let doubled := doubleBackslashes text
  if doubled.getLast? = some '"' then escapeTriples doubled.dropLast ++ ['\\', '"']
  else escapeTriples doubled

/-- Rows with the indentation before each but the first, and before none that is empty. -/
def indentRows (indent : List Char) : List (List Char) → List (List Char)
  | [] => []
  | first :: later => first :: later.map fun row => if row.isEmpty then row else indent ++ row

def delimiter : List Char :=
  ['"', '"', '"']

/-- The literal of a text in source that is indented by `indent`. -/
def literal (doc indent : List Char) : List Char :=
  indent ++ delimiter ++ unrows (indentRows indent (rows (escape doc))) ++ delimiter

end TypeStub.Docstring
