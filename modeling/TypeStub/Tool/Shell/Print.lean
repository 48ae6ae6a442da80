import TypeStub.Tool.Escape
import TypeStub.Tool.Shell.Arithmetic
import TypeStub.Tool.Fractional

/-!
Contract: the commands of scripts that print their arguments.

Owns:
- `echo`, the arguments in a row;
- `printf`, the arguments in a form.
-/

namespace TypeStub.Tool.Shell

/-- What a command prints, its complaints and its code. -/
structure Printed where
  out : ByteText
  complaints : List ByteText
  code : Nat

/-- The text up to the mark that ends an output, and whether it stands there. -/
def upToStop : ByteText → ByteText × Bool
  | [] => ([], false)
  | '\\' :: 'c' :: _ => ([], true)
  | '\\' :: c :: rest =>
      let (shown, stopped) := upToStop rest
      ('\\' :: c :: shown, stopped)
  | c :: rest =>
      let (shown, stopped) := upToStop rest
      (c :: shown, stopped)

/-- The text that an argument writes with its escapes, and whether it ends the output. -/
def escapedText (argument : ByteText) : ByteText × Bool :=
  let (text, stopped) := upToStop argument
  ((unescape ⟨true, true, true, false⟩ text).map (·.1), stopped)

def echo (arguments : List ByteText) : Printed :=
  let (silent, shown) :=
    match arguments with
    | ['-', 'n'] :: rest => (true, rest)
    | _ => (false, arguments)
  let (text, stopped) := escapedText ([' '].intercalate shown)
  ⟨text ++ (if silent || stopped then [] else ['\n']), [], 0⟩

/-! ## Forms -/

/-- The number that an argument writes: its sign, its size and the rest behind it; nothing if
it does not begin with one. -/
def signedNumber? (text : ByteText) : Option (Bool × Nat × ByteText) :=
  let body := text.dropWhile isSpace
  let (negative, digits) := match body with
    | '-' :: rest => (true, rest)
    | '+' :: rest => (false, rest)
    | _ => (false, body)
  (leadingNumber? digits).map fun (value, rest) => (negative, value, rest)

/-- A number with what is to be said about its argument. -/
structure NumberRead where
  negative : Bool
  size : Nat
  complaint : Option ByteText

/-- The greatest number that a form without signs can show. -/
def greatestUnsigned : Nat :=
  Nat.pow 2 64 - 1

/-- Read the number in an argument. A quote in front of a character gives its code. -/
def NumberRead.ofArgument (signed : Bool) (argument : ByteText) : NumberRead :=
  match argument with
  | [] => ⟨false, 0, none⟩
  | '"' :: rest | '\'' :: rest => ⟨false, (rest.headD '\x00').toNat, none⟩
  | _ =>
      match signedNumber? argument with
      | none => ⟨false, 0, some (argument ++ ": expected numeric value".toList)⟩
      | some (negative, size, rest) =>
          let most :=
            if !signed then greatestUnsigned
            else if negative then greatestNumber + 1
            else greatestNumber
          let complaint :=
            if !rest.isEmpty then some (argument ++ ": not completely converted".toList)
            else if most < size then some (argument ++ ": Numerical result out of range".toList)
            else none
          ⟨negative, min size most, complaint⟩

/-- A number that can have a fraction, with what is to be said about its argument. -/
structure FractionalRead where
  negative : Bool
  size : Fractional
  complaint : Option ByteText

def FractionalRead.ofArgument (argument : ByteText) : FractionalRead :=
  let zero : Fractional := .finite 0 0
  match argument with
  | [] => ⟨false, zero, none⟩
  | '"' :: rest | '\'' :: rest => ⟨false, .finite (rest.headD '\x00').toNat 0, none⟩
  | _ =>
      let body := argument.dropWhile isSpace
      let (negative, body) := match body with
        | '-' :: rest => (true, rest)
        | '+' :: rest => (false, rest)
        | _ => (false, body)
      match Fractional.read? body with
      | none => ⟨false, zero, some (argument ++ ": expected numeric value".toList)⟩
      | some ((size, isBeyond), rest) =>
          let complaint :=
            if !rest.isEmpty then some (argument ++ ": not completely converted".toList)
            else if isBeyond then some (argument ++ ": Numerical result out of range".toList)
            else none
          ⟨negative, size, complaint⟩

structure Directive where
  flags : ByteText
  width : Nat
  precision : Option Nat
deriving DecidableEq, Repr

namespace Directive

def fill (directive : Directive) (text : ByteText) : ByteText :=
  let blanks := List.replicate (directive.width - text.length) ' '
  if directive.flags.contains '-' then text ++ blanks else blanks ++ text

def text (directive : Directive) (argument : ByteText) : ByteText :=
  directive.fill (match directive.precision with
    | some most => argument.take most
    | none => argument)

/-- The digits of a number behind what stands in front of it. -/
def digits (directive : Directive) (front digits : ByteText) : ByteText :=
  let least := directive.precision.getD 1
  let digits := if least = 0 ∧ digits = ['0'] then [] else digits
  let digits := List.replicate (least - digits.length) '0' ++ digits
  let zeros : Bool := directive.flags.contains '0' && !directive.flags.contains '-' &&
    directive.precision.isNone
  if zeros then
    front ++ List.replicate (directive.width - front.length - digits.length) '0' ++ digits
  else directive.fill (front ++ digits)

/-- What stands in front of a number for its sign. -/
def sign (directive : Directive) (negative : Bool) : ByteText :=
  if negative then ['-']
  else if directive.flags.contains '+' then ['+']
  else if directive.flags.contains ' ' then [' ']
  else []

def signed (directive : Directive) (negative : Bool) (size : Nat) : ByteText :=
  directive.digits (directive.sign negative) (decimalText size)

/-- A number without a sign in its form. -/
def unsigned (directive : Directive) (letter : Char) (negative : Bool) (size : Nat) : ByteText :=
  let value := if negative ∧ size ≠ 0 then greatestUnsigned + 1 - size else size
  let marked : Bool := directive.flags.contains '#'
  if letter = 'u' then directive.digits [] (decimalText value)
  else if letter = 'o' then
    let digits := Nat.toDigits 8 value
    directive.digits [] (if marked && value != 0 then '0' :: digits else digits)
  else
    let digits := Nat.toDigits 16 value
    let front := if marked && value != 0 then ['0', letter] else []
    directive.digits front (if letter = 'X' then digits.map Char.toUpper else digits)

/-- A number that can have a fraction in the form that a letter names. -/
def fractional (directive : Directive) (letter : Char) (negative : Bool) (size : Fractional) :
    ByteText :=
  let marked : Bool := directive.flags.contains '#'
  let sign := directive.sign negative
  let text := match size with
    | .infinite => directive.fill (sign ++ "inf".toList)
    | .notNumber => directive.fill (sign ++ "nan".toList)
    | .finite mantissa exponent =>
        let places := directive.precision.getD 6
        let (front, body) := match letter.toLower with
          | 'e' => (sign, Fractional.scientific marked places mantissa exponent)
          | 'f' => (sign, Fractional.fixed marked places mantissa exponent)
          | 'g' => (sign, Fractional.general marked places mantissa exponent)
          | _ =>
              (sign ++ "0x".toList,
                Fractional.hexadecimal marked directive.precision mantissa exponent)
        let missing := directive.width - front.length - body.length
        if directive.flags.contains '0' && !directive.flags.contains '-' then
          front ++ List.replicate missing '0' ++ body
        else directive.fill (front ++ body)
  if letter.isUpper then text.map Char.toUpper else text

end Directive

/-- A form that is being printed: the output with its latest piece first, the arguments that
are left, the complaints with the latest first, and whether an argument has ended all. -/
structure Printing where
  pieces : List ByteText
  arguments : List ByteText
  complaints : List ByteText
  stopped : Bool

namespace Printing

def put (printing : Printing) (piece : ByteText) : Printing :=
  { printing with pieces := piece :: printing.pieces }

/-- Take the next argument, which is empty behind the last one. -/
def take (printing : Printing) : ByteText × Printing :=
  (printing.arguments.headD [], { printing with arguments := printing.arguments.tail })

def takeNumber (printing : Printing) (signed : Bool) : NumberRead × Printing :=
  let (argument, printing) := printing.take
  let read := NumberRead.ofArgument signed argument
  (read, { printing with complaints := read.complaint.toList ++ printing.complaints })

/-- Take a number of a directive, which a star leaves to an argument. -/
def takeCount (printing : Printing) (text : ByteText) :
    Option Int × ByteText × Printing :=
  match text with
  | '*' :: rest =>
      let (read, printing) := printing.takeNumber true
      let size := Int.ofNat read.size
      (some (if read.negative then -size else size), rest, printing)
  | _ =>
      let digits := text.takeWhile Char.isDigit
      (if digits.isEmpty then none else some (Int.ofNat (decimalValue digits)),
        text.drop digits.length, printing)

/-- Print the next argument by a directive with a letter; nothing for a letter that has no
meaning. -/
def direct? (printing : Printing) (directive : Directive) (letter : Char) : Option Printing :=
  if letter = 's' then
    let (argument, printing) := printing.take
    some (printing.put (directive.text argument))
  else if letter = 'b' then
    let (argument, printing) := printing.take
    let (text, stopped) := escapedText argument
    some { printing.put (directive.text text) with stopped }
  else if letter = 'c' then
    let (argument, printing) := printing.take
    some (printing.put (directive.fill [argument.headD '\x00']))
  else if letter = 'd' ∨ letter = 'i' then
    let (read, printing) := printing.takeNumber true
    some (printing.put (directive.signed read.negative read.size))
  else if letter = 'o' ∨ letter = 'u' ∨ letter = 'x' ∨ letter = 'X' then
    let (read, printing) := printing.takeNumber false
    some (printing.put (directive.unsigned letter read.negative read.size))
  else if "aAeEfFgG".toList.contains letter then
    let (argument, printing) := printing.take
    let read := FractionalRead.ofArgument argument
    let printing := { printing with complaints := read.complaint.toList ++ printing.complaints }
    some (printing.put (directive.fractional letter read.negative read.size))
  else none

end Printing

/-- A form cannot be printed, with what was printed before. -/
structure FormFault where
  before : Printing
  problem : ByteText

/-- Print the rest of a form, of which at most `steps` signs are read. -/
def printOnce : (steps : Nat) → Printing → ByteText → Except FormFault Printing
  | 0, printing, _ => .ok printing
  | _, printing, [] => .ok printing
  | steps + 1, printing, '\\' :: rest =>
      let (made, used) := escape ⟨false, true, true, false⟩ rest
      printOnce steps (printing.put (made.map (·.1))) (rest.drop used)
  | steps + 1, printing, '%' :: '%' :: rest => printOnce steps (printing.put ['%']) rest
  | steps + 1, printing, '%' :: rest =>
      let flags := rest.takeWhile fun c => "#-+ 0".toList.contains c
      let (width, behind, printing) := printing.takeCount (rest.drop flags.length)
      let (precision, behind, printing) := match behind with
        | '.' :: behind =>
            let (precision, behind, printing) := printing.takeCount behind
            (some (precision.getD 0), behind, printing)
        | _ => (none, behind, printing)
      match behind with
      | [] => .error ⟨printing, "missing format character".toList⟩
      | letter :: behind =>
          let width := width.getD 0
          let directive : Directive :=
            { flags := if width < 0 then '-' :: flags else flags
              width := width.natAbs
              precision := precision.bind fun count =>
                if count < 0 then none else some count.natAbs }
          match printing.direct? directive letter with
          | none =>
              let written := '%' :: rest.take (rest.length - behind.length)
              .error ⟨printing, written ++ ": invalid directive".toList⟩
          | some printing =>
              if printing.stopped then .ok printing else printOnce steps printing behind
  | steps + 1, printing, c :: rest => printOnce steps (printing.put [c]) rest

/-- Print a form again and again until all arguments are taken. -/
def printAll (form : ByteText) : (rounds : Nat) → Printing → Except FormFault Printing
  | 0, printing => .ok printing
  | rounds + 1, printing => do
      let after ← printOnce form.length printing form
      if after.stopped || after.arguments.isEmpty ||
          after.arguments.length == printing.arguments.length then return after
      else printAll form rounds after

def printf (arguments : List ByteText) : Printed :=
  let arguments := match arguments with
    | ['-', '-'] :: rest => rest
    | _ => arguments
  match arguments with
  | [] => ⟨[], ["usage: printf format [arg ...]".toList], 2⟩
  | form :: arguments =>
      match form with
      | '-' :: letter :: _ => ⟨[], ["Illegal option -".toList ++ [letter]], 2⟩
      | _ =>
          match printAll form (arguments.length + 1) ⟨[], arguments, [], false⟩ with
          | .ok printing =>
              ⟨printing.pieces.reverse.flatten, printing.complaints.reverse,
                if printing.complaints.isEmpty then 0 else 1⟩
          | .error fault =>
              ⟨fault.before.pieces.reverse.flatten,
                (fault.problem :: fault.before.complaints).reverse, 2⟩

end TypeStub.Tool.Shell
