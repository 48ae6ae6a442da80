import TypeStub.Tool

/-!
Contract: how names stand in complaints.

Owns:
- `shown`, a name as a script could write it, without quotes if it needs none;
- `enclosed`, the same with quotes in any case;
- `escaped`, a text with escapes, and `spelled`, a text in quotes with escapes.
-/

namespace TypeStub.Tool

/-- The letter that writes a control character behind a backslash. -/
def escapeLetter? (c : Char) : Option Char :=
  match c with
  | '\x07' => some 'a'
  | '\x08' => some 'b'
  | '\x0C' => some 'f'
  | '\n' => some 'n'
  | '\r' => some 'r'
  | '\t' => some 't'
  | '\x0B' => some 'v'
  | _ => none

def octalText (c : Char) : ByteText :=
  [c.toNat / 64 % 8, c.toNat / 8 % 8, c.toNat % 8].map Nat.digitChar

/-- What writes a byte behind a backslash if it cannot stand for itself. -/
def escapedByte? (c : Char) : Option ByteText :=
  match escapeLetter? c with
  | some letter => some ['\\', letter]
  | none => if c == ' ' || isGraphic c then none else some ('\\' :: octalText c)

/-- A text in which escapes write the bytes that do not show. -/
def escaped (text : ByteText) : ByteText :=
  text.flatMap fun c => (escapedByte? c).getD [c]

/-- The byte means something to scripts, in its place of a name of that length. -/
def isDelicate (place length : Nat) (c : Char) : Bool :=
  "?\\ !\"$&()*;<=>[^\x60|':".toList.contains c ||
    ((c == '\x7b' || c == '\x7d') && length == 1) || ((c == '#' || c == '~') && place == 0)

/-- The byte means the same between double quotes as between single ones. -/
def isPlainInside (place length : Nat) (c : Char) : Bool :=
  c.isAlphanum || " '%+,-./:]_".toList.contains c ||
    ((c == '\x7b' || c == '\x7d') && length == 1 && place == 0) ||
    ((c == '#' || c == '~') && place == 0) || c == '@'

/-- A name between single quotes, where `inEscapes` says that they hold escapes. -/
def enclosedFrom (inEscapes : Bool) : ByteText → ByteText
  | [] => ['\'']
  | c :: rest =>
      match escapedByte? c with
      | some written =>
          (if inEscapes then [] else "'$'".toList) ++ written ++ enclosedFrom true rest
      | none =>
          if c = '\'' then "'\\''".toList ++ enclosedFrom false rest
          else (if inEscapes then "''".toList else []) ++ c :: enclosedFrom false rest

/-- A name between quotes, as a script could write it. -/
def enclosed (name : ByteText) : ByteText :=
  let tests := name.mapIdx fun place c => isPlainInside place name.length c
  if name.contains '\'' && tests.all id then '"' :: (name ++ ['"'])
  else '\'' :: enclosedFrom false name

/-- A name as a script could write it, between quotes only if it needs them. -/
def shown (name : ByteText) : ByteText :=
  let tests := name.mapIdx fun place c =>
    isDelicate place name.length c || (escapedByte? c).isSome
  if name.isEmpty || tests.any id then enclosed name else name

/-- A text between single quotes, with a backslash in front of what cannot stand there. -/
def spelled (text : ByteText) : ByteText :=
  let body := text.flatMap fun c =>
    match escapedByte? c with
    | some written => written
    | none => if c == '\'' || c == '\\' then ['\\', c] else [c]
  '\'' :: (body ++ ['\''])

end TypeStub.Tool
