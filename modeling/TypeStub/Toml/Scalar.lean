import TypeStub.Json.Reader

/-!
Contract: the numbers, truth values and times of TOML.

Owns:
- `Scalar.skip?`, which passes over one of them at the beginning of a text;
- `Scalar.isTime`, which tells the texts that are a time.

Nothing is kept of these values, so only their form and their range are checked.
-/

namespace TypeStub.Toml.Scalar

def mark? (c : Char) : List Char → Option (List Char)
  | [] => none
  | first :: rest => if first = c then some rest else none

def word? : List Char → List Char → Option (List Char)
  | [], rest => some rest
  | c :: word, rest => (mark? c rest).bind (word? word)

/-- Pass over the first of two forms that fits. -/
def either (first second : List Char → Option (List Char)) (text : List Char) :
    Option (List Char) :=
  match first text with
  | some rest => some rest
  | none => second text

/-! ## Numbers -/

/-- The rest of a run of digits, in which single underscores may stand between digits, and
the text after it. Digits are held latest first. -/
def moreDigits (isDigit : Char → Bool) (read : List Char) : List Char → List Char × List Char
  | '_' :: c :: rest =>
      if isDigit c then moreDigits isDigit (c :: read) rest else (read.reverse, '_' :: c :: rest)
  | c :: rest =>
      if isDigit c then moreDigits isDigit (c :: read) rest else (read.reverse, c :: rest)
  | [] => (read.reverse, [])

/-- A run of digits, at least one, and the text after it. -/
def digits? (isDigit : Char → Bool) : List Char → Option (List Char × List Char)
  | [] => none
  | c :: rest => if isDigit c then some (moreDigits isDigit [c] rest) else none

/-- The text without a sign at its beginning, and whether that is a minus. -/
def sign : List Char → Bool × List Char
  | '-' :: rest => (true, rest)
  | '+' :: rest => (false, rest)
  | unsigned => (false, unsigned)

/-- The digits of a decimal integer without its sign. A leading zero stands alone. -/
def decimalDigits? : List Char → Option (List Char × List Char)
  | '0' :: rest => some (['0'], rest)
  | digits => digits? Char.isDigit digits

def isDigitOf (base : Nat) (c : Char) : Bool :=
  match Json.hexDigit? c with
  | some value => value < base
  | none => false

/-- The least number beyond the integers of 64 bits with a sign. -/
def signedBound : Nat :=
  Nat.pow 2 63

def ofDigits (base : Nat) (digits : List Char) : Nat :=
  digits.foldl (fun number c => number * base + (Json.hexDigit? c).getD 0) 0

/-- Pass over an integer of a base with a letter of its own. -/
def based? (letter : Char) (base : Nat) (text : List Char) : Option (List Char) :=
  (mark? '0' text).bind fun marked =>
    (mark? letter marked).bind fun rest =>
      (digits? (isDigitOf base) rest).bind fun (digits, after) =>
        if ofDigits base digits < signedBound then some after else none

/-- Pass over a decimal integer of 64 bits. -/
def decimal? (text : List Char) : Option (List Char) :=
  let (negative, unsigned) := sign text
  (decimalDigits? unsigned).bind fun (digits, after) =>
    if ofDigits 10 digits < signedBound + (if negative then 1 else 0) then some after else none

def integer? : List Char → Option (List Char) :=
  either (based? 'x' 16) (either (based? 'o' 8) (either (based? 'b' 2) decimal?))

/-- The exponent of a number: its sign, its digits and the text after it. -/
def exponent? : List Char → Option (Bool × List Char × List Char)
  | mark :: rest =>
      if mark = 'e' ∨ mark = 'E' then
        let (negative, unsigned) := sign rest
        (digits? Char.isDigit unsigned).map fun (digits, after) => (negative, digits, after)
      else none
  | [] => none

/-- Go on to `after` unless the number lies beyond the greatest binary floating-point number
of 64 bits. A negative number may lie beyond the least, and no number is too close to
zero. -/
def inRange? (negative : Bool) (digits : List Char) (places : Nat)
    (exponent : Bool × List Char) (after : List Char) : Option (List Char) :=
  let power : Int := ofDigits 10 exponent.2
  let scale : Int := (if exponent.1 then -power else power) - places
  if negative ∨ Binary64.holds (ofDigits 10 digits) scale then some after else none

/-- Pass over a number with a fraction, an exponent or both. -/
def fractional? (text : List Char) : Option (List Char) :=
  let (negative, unsigned) := sign text
  (decimalDigits? unsigned).bind fun (whole, rest) =>
    match rest with
    | '.' :: afterPoint =>
        (digits? Char.isDigit afterPoint).bind fun (places, after) =>
          match exponent? after with
          | some (sign, digits, rest) =>
              inRange? negative (whole ++ places) places.length (sign, digits) rest
          | none => inRange? negative (whole ++ places) places.length (false, []) after
    | _ =>
        (exponent? rest).bind fun (sign, digits, after) =>
          inRange? negative whole 0 (sign, digits) after

/-- Pass over infinity or the value that is no number, with an optional sign. -/
def special? (text : List Char) : Option (List Char) :=
  either (word? ['i', 'n', 'f']) (word? ['n', 'a', 'n']) (sign text).2

/-! ## Times -/

/-- The number written with exactly `count` digits, and the text after it. -/
def fixed? (count : Nat) (text : List Char) : Option (Nat × List Char) :=
  let digits := text.take count
  if digits.length = count ∧ digits.all Char.isDigit then
    some (ofDigits 10 digits, text.drop count)
  else none

/-- Pass over a number of two digits between two bounds. -/
def pair? (low high : Nat) (text : List Char) : Option (List Char) :=
  (fixed? 2 text).bind fun (value, after) =>
    if low ≤ value ∧ value ≤ high then some after else none

def daysIn (year month : Nat) : Nat :=
  if month = 2 then
    if year % 4 = 0 ∧ (year % 100 ≠ 0 ∨ year % 400 = 0) then 29 else 28
  else if month = 4 ∨ month = 6 ∨ month = 9 ∨ month = 11 then 30
  else 31

def date? (text : List Char) : Option (List Char) :=
  (fixed? 4 text).bind fun (year, afterYear) =>
    (mark? '-' afterYear).bind fun monthText =>
      (fixed? 2 monthText).bind fun (month, afterMonth) =>
        if 1 ≤ month ∧ month ≤ 12 then
          (mark? '-' afterMonth).bind (pair? 1 (daysIn year month))
        else none

/-- Pass over a fraction of a second, if there is one. -/
def fraction (text : List Char) : List Char :=
  match text with
  | '.' :: rest =>
      if rest.head?.any Char.isDigit then rest.dropWhile Char.isDigit else text
  | _ => text

/-- Pass over a time of day. A minute may have a leap second. -/
def time? (text : List Char) : Option (List Char) :=
  ((((pair? 0 23 text).bind (mark? ':')).bind (pair? 0 59)).bind (mark? ':')).bind fun rest =>
    (pair? 0 60 rest).map fraction

/-- Pass over the distance of a time from universal time, if there is one. -/
def offset (text : List Char) : List Char :=
  match text with
  | [] => []
  | c :: rest =>
      if c = 'Z' ∨ c = 'z' then rest
      else if c = '+' ∨ c = '-' then
        (((pair? 0 23 rest).bind (mark? ':')).bind (pair? 0 59)).getD text
      else text

/-- Pass over a date, with a time of day after a letter or a space. -/
def dateTime? (text : List Char) : Option (List Char) :=
  (date? text).map fun after =>
    match after with
    | c :: rest =>
        if c = 'T' ∨ c = 't' ∨ c = ' ' then ((time? rest).map offset).getD after else after
    | [] => after

/-- The whole text is a time: a date with or without a time of day, or a time of day. -/
def isTime (text : List Char) : Bool :=
  either dateTime? time? text == some []

/-! ## Any scalar -/

/-- Pass over a number, a truth value or a time. -/
def skip? (text : List Char) : Option (List Char) :=
  match text with
  | [] => none
  | c :: _ =>
      if c.isDigit || c == '+' || c == '-' then
        either dateTime? (either time? (either fractional? (either special? integer?))) text
      else
        either (word? ['t', 'r', 'u', 'e']) (either (word? ['f', 'a', 'l', 's', 'e']) special?)
          text

end TypeStub.Toml.Scalar
