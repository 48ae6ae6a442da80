/-!
Contract: two ways to divide text at line feeds.

Owns:
- `rows`, the pieces between line feeds, all of them kept;
- `lines`, where a line feed (with a carriage return right before it) ends a line, so
  that no empty line follows the last ending.
-/

namespace TypeStub.Text

/-- The pieces of the text between its line feeds; there is always at least one. -/
def rows (text : List Char) : List (List Char) :=
  text.splitOn '\n'

/-- The text without one carriage return at its very end. -/
def dropFinalReturn (text : List Char) : List Char :=
  if text.getLast? = some '\r' then text.dropLast else text

/-- Lines from rows: a row before another is ended by a line feed and loses the
carriage return of that ending; the last row is a line unless it is empty. -/
def linesOfRows : List (List Char) → List (List Char)
  | [] => []
  | [last] => if last.isEmpty then [] else [last]
  | row :: next :: rest => dropFinalReturn row :: linesOfRows (next :: rest)

/-- The lines of the text. An ending is a line feed, with a carriage return if one stands
before it, and the last line may lack its ending. -/
def lines (text : List Char) : List (List Char) :=
  linesOfRows (rows text)

/-- The text whose rows are given. -/
def unrows (rows : List (List Char)) : List Char :=
  ['\n'].intercalate rows

theorem unrows_rows (text : List Char) : unrows (rows text) = text := by
  simp [unrows, rows]

end TypeStub.Text
