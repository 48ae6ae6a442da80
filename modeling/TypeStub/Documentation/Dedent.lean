import TypeStub.Text.Blank
import TypeStub.Text.Line

/-!
Contract: documentation without the indentation of the source it was written in.

Owns:
- the margin of a text, which its lines after the first have in common;
- `Documentation.dedent`, which removes it together with blank lines at either end.
-/

namespace TypeStub.Documentation

open Text

/-- The text with eight spaces for every tab. -/
def expandTabs (text : List Char) : List Char :=
  text.flatMap fun c => if c = '\t' then List.replicate 8 ' ' else [c]

/-- The number of white space characters that the line begins with. -/
def indentation (line : List Char) : Nat :=
  (line.takeWhile isBlank).length

/-- The least indentation of the lines that are not blank; zero if all are. -/
def margin (later : List (List Char)) : Nat :=
  ((later.filter fun line => !isBlankText line).map indentation).min?.getD 0

/-- The line without white space at its start, `width` characters of it at most. -/
def stripIndent (width : Nat) (line : List Char) : List Char :=
  line.drop (min width (indentation line))

/-- The lines without the blank ones at either end. -/
def peel (lines : List (List Char)) : List (List Char) :=
  ((lines.dropWhile isBlankText).reverse.dropWhile isBlankText).reverse

/-- Dedent lines: the first loses all its indentation, the others lose the margin and the
carriage returns at their end. -/
def dedentLines : List (List Char) → List (List Char)
  | [] => []
  | first :: later =>
      let width := margin later
      peel (trimStart first ::
        later.map fun line => trimEndBy (· == '\r') (stripIndent width line))

/-- The text without common indentation and without blank lines at either end. -/
def dedent (raw : String) : String :=
  String.ofList (unrows (dedentLines (lines (expandTabs raw.toList))))

end TypeStub.Documentation
