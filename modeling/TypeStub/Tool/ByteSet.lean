import TypeStub.Tool.Escape
import TypeStub.Tool.System.Quoting

/-!
Contract: sets of bytes as the arguments of a program write them.

Owns:
- the named classes of bytes;
- `SetPart`, a part of a set in its order, and `SetPart.readAll?`, which reads the parts.

A part is a byte, a range, a class in brackets with colons, the byte in brackets with equals
signs, or a byte in brackets that is repeated.
-/

namespace TypeStub.Tool

def allBytes : ByteText :=
  (List.range 256).map Char.ofNat

/-- The bytes with the given bounds, in ascending order. -/
def byteRange (low high : Char) : ByteText :=
  (List.range' low.toNat (high.toNat + 1 - low.toNat)).map Char.ofNat

def classTest? (name : ByteText) : Option (Char → Bool) :=
  match String.ofList name with
  | "alnum" => some Char.isAlphanum
  | "alpha" => some Char.isAlpha
  | "blank" => some fun c => c == ' ' || c == '\t'
  | "cntrl" => some fun c => c < ' ' || c == '\x7F'
  | "digit" => some Char.isDigit
  | "graph" => some fun c => ' ' < c && c < '\x7F'
  | "lower" => some Char.isLower
  | "print" => some fun c => ' ' ≤ c && c < '\x7F'
  | "punct" => some fun c => ' ' < c && c < '\x7F' && !c.isAlphanum
  | "space" => some isSpace
  | "upper" => some Char.isUpper
  | "xdigit" => some fun c => c.isDigit || ('a' ≤ c && c ≤ 'f') || ('A' ≤ c && c ≤ 'F')
  | _ => none

inductive SetPart where
  | one (c : Char)
  | range (low high : Char)
  | named (name : ByteText)
  | same (c : Char)
  /-- A byte so many times, or as often as it takes. -/
  | repeated (c : Char) (count : Option Nat)
deriving DecidableEq, Repr

namespace SetPart

/-- The part, where a byte that is repeated stands at most so many times. -/
def upTo (most : Nat) : SetPart → SetPart
  | .repeated c (some count) => .repeated c (some (min count most))
  | part => part

/-- The bytes of a part. One that is repeated as often as it takes has none of its own. -/
def bytes : SetPart → ByteText
  | .one c => [c]
  | .range low high => byteRange low high
  | .named name => ((classTest? name).map allBytes.filter).getD []
  | .same c => [c]
  | .repeated c count => List.replicate (count.getD 0) c

def shownByte (c : Char) : ByteText :=
  if ' ' ≤ c ∧ c ≤ '~' then [c]
  else
    let digit (value : Nat) : Char := Char.ofNat (48 + value % 8)
    ['\\', digit (c.toNat / 64), digit (c.toNat / 8), digit c.toNat]

/-- The text in brackets up to the given sign with a closing bracket behind it, and the rest
after both. -/
def upToSign? (sign : Char) : List (Char × Bool) → Option (ByteText × List (Char × Bool))
  | (c, escaped) :: (d, closes) :: rest =>
      if c = sign ∧ !escaped ∧ d = ']' ∧ !closes then some ([], rest)
      else (upToSign? sign ((d, closes) :: rest)).map fun (text, rest) => (c :: text, rest)
  | _ => none

/-- The count in brackets behind a byte and a star, and the rest after them. -/
def repetition? : List (Char × Bool) → Option (ByteText × List (Char × Bool))
  | [] => none
  | (c, escaped) :: rest =>
      if escaped then none
      else if c = ']' then some ([], rest)
      else (repetition? rest).map fun (text, rest) => (c :: text, rest)

/-- The greatest number of times that a byte can be repeated. -/
def greatestCount : Nat :=
  Nat.pow 2 64 - 3

/-- How often a byte is repeated. Digits behind a zero are octal; none, and zero itself,
stand for as often as it takes. -/
def count? (digits : ByteText) : Option (Option Nat) :=
  let base := if digits.head? = some '0' then 8 else 10
  let fits (c : Char) : Bool := c.isDigit && c.toNat - '0'.toNat < base
  if !digits.all fits then none
  else
    match digits.foldl (fun value c => value * base + (c.toNat - '0'.toNat)) 0 with
    | 0 => some none
    | count => if greatestCount < count then none else some (some count)

/-- A part in brackets, after the opening one, and the rest of the set; nothing if the
bracket stands for itself. -/
def bracketed? (text : List (Char × Bool)) :
    Except ByteText (Option (SetPart × List (Char × Bool))) :=
  let repetition : Except ByteText (Option (SetPart × List (Char × Bool))) :=
    match text with
    | (c, _) :: ('*', false) :: rest =>
        match repetition? rest with
        | none => .ok none
        | some (digits, rest) =>
            match count? digits with
            | none =>
                .error ("invalid repeat count ".toList ++ spelled digits ++
                  " in [c*n] construct".toList)
            | some count => .ok (some (.repeated c count, rest))
    | _ => .ok none
  let isRepetition : Bool :=
    match text with
    | _ :: ('*', false) :: rest =>
        (repetition? rest).any fun (digits, _) => digits.all Char.isDigit
    | _ => false
  match text with
  | (sign, false) :: inner =>
      if sign = ':' ∨ sign = '=' then
        match upToSign? sign inner with
        | none => repetition
        | some ([], _) =>
            .error (if sign = ':' then "missing character class name '[::]'".toList
              else "missing equivalence class character '[==]'".toList)
        | some (name, rest) =>
            if sign = ':' then
              if (classTest? name).isSome then .ok (some (.named name, rest))
              else if isRepetition then repetition
              else .error ("invalid character class ".toList ++ spelled (escaped name))
            else
              match name with
              | [c] => .ok (some (.same c, rest))
              | _ =>
                  if isRepetition then repetition
                  else
                    .error (escaped name ++
                      ": equivalence class operand must be a single character".toList)
      else repetition
  | _ => repetition

def readFrom : (steps : Nat) → List (Char × Bool) → Except ByteText (List SetPart)
  | 0, _ => .ok []
  | _, [] => .ok []
  | steps + 1, (c, escaped) :: rest => do
      let bracketed ←
        if c = '[' ∧ !escaped ∧ rest.length ≥ 2 then bracketed? rest else .ok none
      match bracketed with
      | some (part, rest) => return part :: (← readFrom steps rest)
      | none =>
          match rest with
          | ('-', false) :: (high, _) :: after =>
              if high < c then
                .error ("range-endpoints of '".toList ++ shownByte c ++ '-' :: shownByte high ++
                  "' are in reverse collating sequence order".toList)
              else return .range c high :: (← readFrom steps after)
          | _ => return .one c :: (← readFrom steps rest)

/-- How the program reads a backslash. -/
def escapesOfSets : EscapeStyle :=
  ⟨false, false, false, true⟩

/-- What is to be said about the backslashes of a set, though they are read. -/
def warnings : ByteText → List ByteText
  | ['\\'] => ["warning: an unescaped backslash at end of string is not portable".toList]
  | '\\' :: a :: b :: c :: rest =>
      if [a, b, c].all isOctal && 256 ≤ octalValue [a, b, c] then
        ("warning: the ambiguous octal escape \\".toList ++ [a, b, c] ++
          " is being\n\tinterpreted as the 2-byte sequence \\0".toList ++ [a, b] ++ ", ".toList ++ [c]) ::
          warnings (c :: rest)
      else warnings (b :: c :: rest)
  | '\\' :: _ :: rest => warnings rest
  | _ :: rest => warnings rest
  | [] => []

def readAll? (argument : ByteText) : Except ByteText (List SetPart) :=
  let text := unescape escapesOfSets argument
  readFrom text.length text

end SetPart

end TypeStub.Tool
