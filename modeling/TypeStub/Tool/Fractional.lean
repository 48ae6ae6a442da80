import TypeStub.Tool

/-!
Contract: numbers with a fraction, as programs read and print them.

Owns:
- `Fractional`, a binary floating-point number of 64 bits, and `Fractional.read?`, which reads
  one;
- `Fractional.fixed`, `Fractional.scientific`, `Fractional.general` and
  `Fractional.hexadecimal`, the ways to write one.

A number is a natural number times a power of two, so that its digits are exact. It is rounded
to what is nearest; of two that are as near, to the one that is even.
-/

namespace TypeStub.Tool

/-- A floating-point number without its sign. -/
inductive Fractional where
  | finite (mantissa : Nat) (exponent : Int)
  | infinite
  | notNumber
deriving DecidableEq, Repr

namespace Fractional

/-- The natural number that is nearest to a fraction. -/
def nearestQuotient (numerator denominator : Nat) : Nat :=
  let below := numerator / denominator
  let rest := numerator % denominator
  if denominator < 2 * rest ∨ (2 * rest = denominator ∧ below % 2 = 1) then below + 1 else below

/-- The fraction times a power of a base. -/
def scaled (base : Nat) (exponent : Int) (numerator denominator : Nat) : Nat × Nat :=
  if exponent < 0 then (numerator, denominator * Nat.pow base exponent.natAbs)
  else (numerator * Nat.pow base exponent.natAbs, denominator)

def leastExponent : Int :=
  -1074

/-- The number nearest to a fraction, and whether the fraction is beyond the range of numbers
that have all their digits. -/
def ofFraction (numerator denominator : Nat) : Fractional × Bool :=
  if numerator = 0 then (.finite 0 0, false)
  else
    let size (exponent : Int) : Nat :=
      let (numerator, denominator) := scaled 2 (-exponent) numerator denominator
      numerator / denominator
    let rough : Int := Int.ofNat numerator.log2 - Int.ofNat denominator.log2 - 53
    let exact := if size rough < Nat.pow 2 53 then rough else rough + 1
    let exponent := max exact leastExponent
    let (numerator, denominator) := scaled 2 (-exponent) numerator denominator
    let mantissa := nearestQuotient numerator denominator
    let (mantissa, exponent) :=
      if mantissa = Nat.pow 2 53 then (Nat.pow 2 52, exponent + 1) else (mantissa, exponent)
    if 971 < exponent then (.infinite, true)
    else
      (.finite mantissa exponent, mantissa < Nat.pow 2 52 && numerator % denominator != 0)

/-! ## Reading -/

def hexDigit? (c : Char) : Option Nat :=
  if c.isDigit then some (c.toNat - '0'.toNat)
  else if 'a' ≤ c.toLower ∧ c.toLower ≤ 'f' then some (c.toLower.toNat - 'a'.toNat + 10)
  else none

/-- The digits in front of a text with those behind a point: their value, how many stand
behind the point, and the rest; nothing without a digit. -/
def pointedDigits? (base : Nat) (digit? : Char → Option Nat) (text : ByteText) :
    Option (Nat × Nat × ByteText) :=
  let isDigit (c : Char) : Bool := (digit? c).isSome
  let whole := text.takeWhile isDigit
  let (part, rest) := match text.drop whole.length with
    | '.' :: rest => (rest.takeWhile isDigit, rest.dropWhile isDigit)
    | rest => ([], rest)
  if whole.isEmpty && part.isEmpty then none
  else
    let value := (whole ++ part).foldl (fun value c => value * base + (digit? c).getD 0) 0
    some (value, part.length, rest)

def exponentBehind (letter : Char) (text : ByteText) : Int × ByteText :=
  match text with
  | c :: rest =>
      let (negative, digits) := match rest with
        | '-' :: digits => (true, digits)
        | '+' :: digits => (false, digits)
        | _ => (false, rest)
      let size := digits.takeWhile Char.isDigit
      if c.toLower = letter ∧ !size.isEmpty then
        let value := Int.ofNat (decimalValue size)
        (if negative then -value else value, digits.drop size.length)
      else (0, text)
  | [] => (0, [])

/-- Numbers with greater exponents than this are beyond all others. -/
def greatestReach : Nat :=
  30000

def ofPower (base value : Nat) (exponent : Int) : Fractional × Bool :=
  if value = 0 then (.finite 0 0, false)
  else if exponent + (Nat.toDigits 10 value).length > greatestReach then (.infinite, true)
  else if exponent + (Nat.toDigits 10 value).length < -(greatestReach : Int) then
    (.finite 0 0, true)
  else
    let (numerator, denominator) := scaled base exponent value 1
    ofFraction numerator denominator

/-- The text without a word in front of it, in letters of any case. -/
def behindWord? (word : String) (text : ByteText) : Option ByteText :=
  if word.toList.isPrefixOf (text.map Char.toLower) then some (text.drop word.length) else none

/-- The number without a sign in front of a text, with whether it is beyond the range, and the
rest. -/
def read? (text : ByteText) : Option ((Fractional × Bool) × ByteText) :=
  match behindWord? "infinity" text, behindWord? "inf" text, behindWord? "nan" text with
  | some rest, _, _ | none, some rest, _ => some ((.infinite, false), rest)
  | none, none, some rest => some ((.notNumber, false), rest)
  | none, none, none =>
      let hexadecimal := (behindWord? "0x" text).bind (pointedDigits? 16 hexDigit?)
      match hexadecimal with
      | some (value, places, rest) =>
          let (exponent, rest) := exponentBehind 'p' rest
          some (ofPower 2 value (exponent - 4 * places), rest)
      | none => do
          let digit? (c : Char) : Option Nat := if c.isDigit then hexDigit? c else none
          let (value, places, rest) ← pointedDigits? 10 digit? text
          let (exponent, rest) := exponentBehind 'e' rest
          return (ofPower 10 value (exponent - places), rest)

/-! ## Writing -/

def fraction (mantissa : Nat) (exponent : Int) : Nat × Nat :=
  scaled 2 exponent mantissa 1

/-- The digits of a natural number, of which the last ones stand behind a point. -/
def pointed (marked : Bool) (places number : Nat) : ByteText :=
  let digits := decimalText number
  let digits := List.replicate (places + 1 - digits.length) '0' ++ digits
  let part := digits.drop (digits.length - places)
  digits.take (digits.length - places) ++ (if part.isEmpty && !marked then [] else '.' :: part)

/-- The number with so many digits behind the point. -/
def fixed (marked : Bool) (places mantissa : Nat) (exponent : Int) : ByteText :=
  let (numerator, denominator) := fraction mantissa exponent
  pointed marked places (nearestQuotient (numerator * Nat.pow 10 places) denominator)

/-- The digits of the number with so many behind the first one, and the power of ten of that
one. -/
def decimalDigits (places mantissa : Nat) (exponent : Int) : Nat × Int :=
  if mantissa = 0 then (0, 0)
  else
    let (numerator, denominator) := fraction mantissa exponent
    let round (power : Int) : Nat :=
      let (numerator, denominator) := scaled 10 (places - power) numerator denominator
      nearestQuotient numerator denominator
    let rough : Int := Int.ofNat (decimalText numerator).length -
      Int.ofNat (decimalText denominator).length
    let least := scaled 10 (-rough) numerator denominator
    let power := if least.1 < least.2 then rough - 1 else rough
    let digits := round power
    if digits < Nat.pow 10 (places + 1) then (digits, power) else (round (power + 1), power + 1)

/-- An exponent with its letter and sign and so many digits at least. -/
def exponentText (letter : Char) (least : Nat) (exponent : Int) : ByteText :=
  let digits := decimalText exponent.natAbs
  letter :: (if exponent < 0 then '-' else '+') ::
    (List.replicate (least - digits.length) '0' ++ digits)

/-- The number with one digit before the point and so many behind it, with its exponent. -/
def scientific (marked : Bool) (places mantissa : Nat) (exponent : Int) : ByteText :=
  let (digits, power) := decimalDigits places mantissa exponent
  pointed marked places digits ++ exponentText 'e' 2 power

/-- A text of digits with a point without the zeros at its end. -/
def withoutZeros (text : ByteText) : ByteText :=
  if text.contains '.' then
    let kept := text.reverse.dropWhile (· == '0')
    (if kept.head? = some '.' then kept.tail else kept).reverse
  else text

/-- The number with so many digits, in the form that suits it. -/
def general (marked : Bool) (size mantissa : Nat) (exponent : Int) : ByteText :=
  let size := max 1 size
  let (digits, power) := decimalDigits (size - 1) mantissa exponent
  let trim (text : ByteText) : ByteText := if marked then text else withoutZeros text
  if power < -4 ∨ power ≥ size then
    trim (pointed marked (size - 1) digits) ++ exponentText 'e' 2 power
  else trim (fixed marked (Int.toNat (size - 1 - power)) mantissa exponent)

/-- The number in hexadecimal digits, of which so many stand behind the point or as many as it
has. -/
def hexadecimal (marked : Bool) (places : Option Nat) (mantissa : Nat) (exponent : Int) :
    ByteText :=
  let shift := 52 - mantissa.log2
  let isNormal : Bool := mantissa != 0 && leastExponent ≤ exponent - shift
  let (mantissa, exponent) :=
    if isNormal then (mantissa * Nat.pow 2 shift, exponent - shift)
    else (mantissa, if mantissa = 0 then -52 else exponent)
  let kept := min 13 (places.getD 13)
  let value := nearestQuotient mantissa (Nat.pow 16 (13 - kept))
  let first := value / Nat.pow 16 kept
  let digits := Nat.toDigits 16 (value % Nat.pow 16 kept)
  let part := if kept = 0 then [] else List.replicate (kept - digits.length) '0' ++ digits
  let part := match places with
    | none => (part.reverse.dropWhile (· == '0')).reverse
    | some places => part ++ List.replicate (places - kept) '0'
  decimalText first ++ (if part.isEmpty && !marked then [] else '.' :: part) ++
    exponentText 'p' 1 (exponent + 52)

end Fractional

end TypeStub.Tool
