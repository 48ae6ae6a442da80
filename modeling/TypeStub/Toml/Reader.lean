import TypeStub.Toml
import TypeStub.Toml.Quoted
import TypeStub.Toml.Scalar

/-!
Contract: the text of TOML documents, version 1.0.

Owns:
- `Toml.read?`, the root table of a text;
- the tables that stand for times by their first key.

Arrays and inline tables, and likewise the parts of a key, may be nested less than
`nestingBound` deep.
-/

namespace TypeStub.Toml

/-- Nesting of this depth is refused. -/
def nestingBound : Nat :=
  80

def skipBlanks (text : List Char) : List Char :=
  text.dropWhile Quoted.isLineBlank

/-- Drop a comment, if the text begins with one. Nothing but a line ending or the end may
follow its characters. -/
def skipComment (text : List Char) : List Char :=
  match text with
  | '#' :: rest => rest.dropWhile Quoted.isPlain
  | _ => text

/-- The text after the blanks, the comment and the line ending that end a line. -/
def lineEnd? (text : List Char) : Option (List Char) :=
  match skipComment (skipBlanks text) with
  | [] => some []
  | rest => if Quoted.lineEnding rest = 0 then none else some (rest.drop (Quoted.lineEnding rest))

/-! ## Keys -/

def isBare (c : Char) : Bool :=
  c.isAlphanum || c == '_' || c == '-'

def simpleKey? (text : List Char) : Option (String × List Char) :=
  match text.takeWhile isBare with
  | [] => (Quoted.readLine? text).map fun (key, rest) => (String.ofList key, rest)
  | key => some (String.ofList key, text.dropWhile isBare)

/-- A key with its dots, and the text after it and the blanks that follow. -/
def dottedKey? : (parts : Nat) → List Char → Option (List String × List Char)
  | 0, _ => none
  | parts + 1, content =>
      match simpleKey? (skipBlanks content) with
      | none => none
      | some (key, rest) =>
          match skipBlanks rest with
          | '.' :: more =>
              (dottedKey? parts more).map fun (path, after) => (key :: path, after)
          | after => some ([key], after)

/-- A key: the parts before the last, the last, and the text after it. -/
def key? (text : List Char) : Option (List String × String × List Char) :=
  match dottedKey? (nestingBound - 1) text with
  | none => none
  | some (path, after) => path.getLast?.map fun last => (path.dropLast, last, after)

/-! ## Values -/

/-- Drop blanks, line endings and comments, `steps` of them at most. -/
def skipLines : (steps : Nat) → List Char → List Char
  | 0, content => content
  | steps + 1, content =>
      match content with
      | [] => []
      | c :: rest =>
          if Quoted.isLineBlank c then skipLines steps rest
          else if c = '#' then skipLines steps (skipComment content)
          else if Quoted.lineEnding content = 0 then content
          else skipLines steps (content.drop (Quoted.lineEnding content))

mutual

/-- A value, and the text after it. `steps` bounds the work left and `depth` the nesting. -/
def value? : (steps depth : Nat) → List Char → Option (Toml × List Char)
  | 0, _, _ => none
  | steps + 1, depth, content =>
      match content with
      | '[' :: rest => if depth ≤ 1 then none else arrayItems? steps (depth - 1) [] rest
      | '{' :: rest =>
          if depth ≤ 1 then none
          else
            match skipBlanks rest with
            | '}' :: after => some (.closed [], after)
            | entriesText => entries? steps (depth - 1) [] entriesText
      | c :: _ =>
          if c = '"' ∨ c = '\'' then
            (Quoted.read? content).map fun (found, rest) => (.text (String.ofList found), rest)
          else (Scalar.skip? content).map fun rest => (.scalar, rest)
      | [] => none

/-- The items of an array that are left, and the text after its bracket. `read` holds the
items before, latest first. -/
def arrayItems? : (steps depth : Nat) → List Toml → List Char → Option (Toml × List Char)
  | 0, _, _, _ => none
  | steps + 1, depth, read, content =>
      match skipLines content.length content with
      | ']' :: after => some (.array read.reverse, after)
      | itemText =>
          match value? steps depth itemText with
          | none => none
          | some (item, rest) =>
              match skipLines rest.length rest with
              | ',' :: more => arrayItems? steps depth (item :: read) more
              | ']' :: after => some (.array (item :: read).reverse, after)
              | _ => none

/-- The entries of a table in braces that are left, at least one, and the text after its
brace. -/
def entries? : (steps depth : Nat) → Entries → List Char → Option (Toml × List Char)
  | 0, _, _, _ => none
  | steps + 1, depth, read, content =>
      match key? content with
      | some (path, key, '=' :: valueText) =>
          match value? steps depth (skipBlanks valueText) with
          | none => none
          | some (found, rest) =>
              match Entries.define path key found .header read with
              | none => none
              | some more =>
                  match skipBlanks rest with
                  | ',' :: after => entries? steps depth more after
                  | '}' :: after => some (.closed more, after)
                  | _ => none
      | _ => none

end

/-! ## Documents -/

/-- What is read of a document: the header in force, and all tables from the root. -/
structure Progress where
  header : List String
  root : Entries

/-- A header line after its first bracket: the keys of the header, and the text after the
line. -/
def header? (text : List Char) : Option (List String × String × List Char) :=
  match key? text with
  | some (path, key, ']' :: rest) => (lineEnd? rest).map fun after => (path, key, after)
  | _ => none

/-- A header line after its first two brackets. -/
def elementHeader? (text : List Char) : Option (List String × String × List Char) :=
  match key? text with
  | some (path, key, ']' :: ']' :: rest) => (lineEnd? rest).map fun after => (path, key, after)
  | _ => none

/-- One line of a document that is not blank and no comment, and the text after it. -/
def line? (progress : Progress) (text : List Char) : Option (Progress × List Char) :=
  match text with
  | '[' :: '[' :: rest =>
      (elementHeader? rest).bind fun (path, key, after) =>
        (Entries.change false (Entries.openElement key) path .header progress.root).map
          fun root => (⟨path ++ [key], root⟩, after)
  | '[' :: rest =>
      (header? rest).bind fun (path, key, after) =>
        (Entries.change false (Entries.openTable key) path .header progress.root).map
          fun root => (⟨path ++ [key], root⟩, after)
  | _ =>
      match key? text with
      | some (path, key, '=' :: valueText) =>
          (value? (text.length + 1) nestingBound (skipBlanks valueText)).bind
            fun (found, rest) =>
              (lineEnd? rest).bind fun after =>
                (Entries.defineUnder progress.header path key found progress.root).map
                  fun root => (⟨progress.header, root⟩, after)
      | _ => none

/-- The lines of a document, at most `steps` of them. -/
def lines? : (steps : Nat) → Progress → List Char → Option Entries
  | 0, _, _ => none
  | steps + 1, progress, content =>
      match skipBlanks content with
      | [] => some progress.root
      | line =>
          if line.head? = some '#' ∨ Quoted.lineEnding line ≠ 0 then
            (lineEnd? line).bind (lines? steps progress)
          else
            (line? progress line).bind fun (next, rest) => lines? steps next rest

/-! ## Times as tables -/

/-- The key that makes a time of a table. -/
def timeKey : String :=
  "$__toml_private_datetime"

mutual

/-- Every table in the value that begins with the key of times has a time under it. The
entries after it count for nothing. -/
def isSettled : Toml → Bool
  | .text _ => true
  | .scalar => true
  | .array items => areSettled items
  | .closed entries => isSettledTable entries
  | .table _ entries => isSettledTable entries
  | .tables elements => areSettledTables elements

def areSettled : List Toml → Bool
  | [] => true
  | head :: tail => isSettled head && areSettled tail

def isSettledTable : List (String × Toml) → Bool
  | [] => true
  | (key, value) :: rest =>
      if key = timeKey then (value.text?.map fun text => Scalar.isTime text.toList).getD false
      else isSettled value && areSettledEntries rest

def areSettledEntries : List (String × Toml) → Bool
  | [] => true
  | (_, value) :: rest => isSettled value && areSettledEntries rest

def areSettledTables : List (List (String × Toml)) → Bool
  | [] => true
  | head :: tail => isSettledTable head && areSettledTables tail

end

/-- The root table of a document. A mark of byte order at its beginning is no part of it. -/
def read? (text : String) : Option Entries :=
  let content :=
    match text.toList with
    | '\uFEFF' :: rest => rest
    | all => all
  match lines? (content.length + 1) ⟨[], []⟩ content with
  | none => none
  | some root => if areSettledEntries root then some root else none

end TypeStub.Toml
