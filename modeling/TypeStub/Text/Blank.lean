/-!
Contract: the white space of Unicode text and trimming by it.

Owns:
- the set of characters with the Unicode property White_Space;
- trimming of a character list at either end.

Does not own: lines (`TypeStub.Text.Line`).
-/

namespace TypeStub.Text

/-- Code points with the Unicode property White_Space, as closed ranges in
ascending order. -/
def blankRanges : List (Nat × Nat) :=
  [(0x09, 0x0D), (0x20, 0x20), (0x85, 0x85), (0xA0, 0xA0), (0x1680, 0x1680),
   (0x2000, 0x200A), (0x2028, 0x2029), (0x202F, 0x202F), (0x205F, 0x205F),
   (0x3000, 0x3000)]

/-- The character is Unicode white space. -/
def isBlank (c : Char) : Bool :=
  blankRanges.any fun range => range.1 ≤ c.toNat && c.toNat ≤ range.2

def isBlankText (text : List Char) : Bool :=
  text.all isBlank

/-- The text without the characters at its end that satisfy `drop`. -/
def trimEndBy (drop : Char → Bool) (text : List Char) : List Char :=
  (text.reverse.dropWhile drop).reverse

def trimStart (text : List Char) : List Char :=
  text.dropWhile isBlank

def trimEnd (text : List Char) : List Char :=
  trimEndBy isBlank text

/-- The text without white space at either end. -/
def trim (text : List Char) : List Char :=
  trimEnd (trimStart text)

/-- A space or a tab: the blanks that may stand inside a line of source. -/
def isSpaceOrTab (c : Char) : Bool :=
  c == ' ' || c == '\t'

end TypeStub.Text
