/-!
Contract: the texts that programs work on.

Owns:
- texts of bytes, where each character stands for one byte;
- decimal numbers in arguments and in columns;
- the pieces of a text that end with a mark, its lines among them.

Does not own: any program (`TypeStub.Tool.Copy` and its neighbours).
-/

namespace TypeStub.Tool

/-- A text of bytes: each character stands for the byte with its number. -/
abbrev ByteText :=
  List Char

def ofBytes (bytes : ByteArray) : ByteText :=
  bytes.toList.map fun byte => Char.ofNat byte.toNat

def toBytes (text : ByteText) : ByteArray :=
  text.foldl (fun bytes c => bytes.push (UInt8.ofNat c.toNat)) ByteArray.empty

def ofString (text : String) : ByteText :=
  ofBytes text.toUTF8

def quoted (text : ByteText) : ByteText :=
  '\'' :: (text ++ ['\''])

def decimalValue (digits : List Char) : Nat :=
  digits.foldl (fun value digit => value * 10 + (digit.toNat - '0'.toNat)) 0

/-- The number that a text writes in decimal digits. -/
def decimal? (text : ByteText) : Option Nat :=
  if text.isEmpty || !text.all Char.isDigit then none else some (decimalValue text)

def total (sizes : List Nat) : Nat :=
  sizes.foldl (fun sum size => sum + size) 0

def decimalText (value : Nat) : ByteText :=
  Nat.toDigits 10 value

/-- The digits of a number at the right end of a column. -/
def column (places value : Nat) : ByteText :=
  let digits := decimalText value
  List.replicate (places - digits.length) ' ' ++ digits

/-- The pieces of a text that end with a mark. Only the last one can lack it. -/
def endedPieces (mark : Char) (text : ByteText) : List ByteText :=
  let pieces := text.splitOn mark
  let ended := pieces.dropLast.map (· ++ [mark])
  match pieces.getLast? with
  | none | some [] => ended
  | some last => ended ++ [last]

/-- The lines of a text, each with its line feed. Only the last one can lack it. -/
def lineTexts (text : ByteText) : List ByteText :=
  endedPieces '\n' text

def isSpace (c : Char) : Bool :=
  c == ' ' || ('\t' ≤ c && c ≤ '\r')

/-- The character shows on paper. Bytes beyond those of ASCII do not count. -/
def isGraphic (c : Char) : Bool :=
  '!' ≤ c && c ≤ '~'

end TypeStub.Tool
