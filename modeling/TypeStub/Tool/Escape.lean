/-!
Contract: characters written with a backslash in the arguments of programs.

Owns: `unescape`, which tells apart characters that stand for themselves and those that were
written with a backslash.
-/

namespace TypeStub.Tool

/-- How a program reads a backslash. -/
structure EscapeStyle where
  /-- A zero in front of an octal number is not one of its three digits. -/
  leadingZero : Bool
  /-- A backslash before any other character stands for itself. -/
  keepsUnknown : Bool
  /-- The letter e makes the control character that begins commands for terminals. -/
  hasEscape : Bool
  /-- An octal number ends before a digit that makes it too large for a byte. -/
  endsEarly : Bool

def control? (style : EscapeStyle) : Char → Option Char
  | 'a' => some '\x07'
  | 'b' => some '\x08'
  | 'f' => some '\x0C'
  | 'n' => some '\n'
  | 'r' => some '\r'
  | 't' => some '\t'
  | 'v' => some '\x0B'
  | '\\' => some '\\'
  | 'e' => if style.hasEscape then some '\x1B' else none
  | _ => none

def isOctal (c : Char) : Bool :=
  '0' ≤ c && c ≤ '7'

def octalValue (digits : List Char) : Nat :=
  digits.foldl (fun value digit => value * 8 + (digit.toNat - '0'.toNat)) 0

def octalByte (digits : List Char) : Char :=
  Char.ofNat (octalValue digits % 256)

def octalDigits (style : EscapeStyle) (text : List Char) : List Char :=
  let limit := if style.leadingZero && text.head? == some '0' then 4 else 3
  let digits := (text.take limit).takeWhile isOctal
  if style.endsEarly && 256 ≤ octalValue digits then digits.dropLast else digits

/-- What a backslash before the text makes, and how many characters of the text it uses. -/
def escape (style : EscapeStyle) : List Char → List (Char × Bool) × Nat
  | [] => ([('\\', false)], 0)
  | c :: rest =>
      match octalDigits style (c :: rest), control? style c with
      | [], some made => ([(made, true)], 1)
      | [], none => (if style.keepsUnknown then [('\\', false), (c, false)] else [(c, true)], 1)
      | digits, _ => ([(octalByte digits, true)], digits.length)

/-- Walk over a text whose first `skip` characters are used up by a backslash. -/
def unescapeFrom (style : EscapeStyle) (skip : Nat) : List Char → List (Char × Bool)
  | [] => []
  | c :: rest =>
      match skip with
      | skipped + 1 => unescapeFrom style skipped rest
      | 0 =>
          if c = '\\' then (escape style rest).1 ++ unescapeFrom style (escape style rest).2 rest
          else (c, false) :: unescapeFrom style 0 rest

/-- The characters of a text, each with whether a backslash made it. -/
def unescape (style : EscapeStyle) (text : List Char) : List (Char × Bool) :=
  unescapeFrom style 0 text

end TypeStub.Tool
