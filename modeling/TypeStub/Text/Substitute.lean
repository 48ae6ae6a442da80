/-!
Contract: replacing a mark in text.

Owns: `substitute`, which puts a value for each occurrence of a mark.
-/

namespace TypeStub.Text

/-- Walk over a text whose first `skip` characters belong to an occurrence of the mark that
has its value already. -/
def substituteFrom (mark value : List Char) (skip : Nat) : List Char → List Char
  | [] => []
  | c :: rest =>
      match skip with
      | skipped + 1 => substituteFrom mark value skipped rest
      | 0 =>
          if mark.isPrefixOf (c :: rest) then
            value ++ substituteFrom mark value (mark.length - 1) rest
          else c :: substituteFrom mark value 0 rest

/-- The text with `value` for each occurrence of `mark`, from the front and without overlap.
What a value brings in is not looked at again. -/
def substitute (mark value text : String) : String :=
  String.ofList (substituteFrom mark.toList value.toList 0 text.toList)

end TypeStub.Text
