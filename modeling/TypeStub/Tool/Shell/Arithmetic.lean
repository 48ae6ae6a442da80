import TypeStub.Tool

/-!
Contract: expressions of numbers in scripts.

Owns: `calculate`, the value of an expression, with the variables that it changes.

Numbers have 64 bits. An operand that does not count is read all the same, but nothing comes
of it.
-/

namespace TypeStub.Tool.Shell

inductive Operation where
  | multiply
  | divide
  | remainder
  | add
  | subtract
  | shiftLeft
  | shiftRight
  | less
  | greater
  | lessOrEqual
  | greaterOrEqual
  | equal
  | unequal
  | bitAnd
  | bitXor
  | bitOr
deriving DecidableEq, Repr

inductive Sign where
  | number (value : Int64)
  | variable (name : ByteText)
  | operation (operation : Operation)
  /-- Put a value, with the old one taken in by an operation or not. -/
  | assignment (operation : Option Operation)
  | andThen
  | orElse
  | question
  | colon
  | opening
  | closing
  | negation
  | complement
  | unknown
deriving DecidableEq, Repr

/-- How tightly an operation binds; a smaller number binds more. -/
def Operation.rank : Operation → Nat
  | .multiply | .divide | .remainder => 0
  | .add | .subtract => 1
  | .shiftLeft | .shiftRight => 2
  | .less | .greater | .lessOrEqual | .greaterOrEqual => 3
  | .equal | .unequal => 4
  | .bitAnd => 5
  | .bitXor => 6
  | .bitOr => 7

def truth (value : Bool) : Int64 :=
  if value then 1 else 0

/-- The result of an operation; nothing for a division by zero. -/
def Operation.apply? (a b : Int64) : Operation → Option Int64
  | .multiply => some (a * b)
  | .divide => if b = 0 then none else some (a / b)
  | .remainder => if b = 0 then none else some (a % b)
  | .add => some (a + b)
  | .subtract => some (a - b)
  | .shiftLeft => some (a <<< b)
  | .shiftRight => some (a >>> b)
  | .less => some (truth (a < b))
  | .greater => some (truth (b < a))
  | .lessOrEqual => some (truth (a ≤ b))
  | .greaterOrEqual => some (truth (b ≤ a))
  | .equal => some (truth (a == b))
  | .unequal => some (truth (a != b))
  | .bitAnd => some (a &&& b)
  | .bitXor => some (a ^^^ b)
  | .bitOr => some (a ||| b)

def digitOf? (base : Nat) (c : Char) : Option Nat :=
  let value :=
    if c.isDigit then some (c.toNat - '0'.toNat)
    else if 'a' ≤ c ∧ c ≤ 'f' then some (c.toNat - 'a'.toNat + 10)
    else if 'A' ≤ c ∧ c ≤ 'F' then some (c.toNat - 'A'.toNat + 10)
    else none
  value.filter (· < base)

/-- The natural number that a text begins with, with its base said by its first digits, and
the rest; nothing without a digit. -/
def leadingNumber? (text : ByteText) : Option (Nat × ByteText) :=
  let read (base : Nat) (text : ByteText) : Option (Nat × ByteText) :=
    match (text.map (digitOf? base)).takeWhile Option.isSome with
    | [] => none
    | digits =>
        some (digits.foldl (fun value digit => value * base + digit.getD 0) 0,
          text.drop digits.length)
  match text with
  | '0' :: x :: rest =>
      if x = 'x' ∨ x = 'X' then (read 16 rest).orElse fun _ => some (0, x :: rest)
      else read 8 text
  | _ => read 10 text

def greatestNumber : Nat :=
  Nat.pow 2 63 - 1

/-- A number of 64 bits that is as near as possible. -/
def clampNumber (negative : Bool) (value : Nat) : Int64 :=
  if negative then Int64.ofInt (-(Int.ofNat (min value (greatestNumber + 1))))
  else Int64.ofInt (Int.ofNat (min value greatestNumber))

/-- The number that a whole text writes, blanks and a sign in front of it included. -/
def wholeNumber? (text : ByteText) : Option Int64 :=
  let text := text.dropWhile isSpace
  let (negative, digits) := match text with
    | '-' :: rest => (true, rest)
    | '+' :: rest => (false, rest)
    | _ => (false, text)
  match leadingNumber? digits with
  | some (value, rest) =>
      if (rest.dropWhile isSpace).isEmpty then some (clampNumber negative value) else none
  | none => none

/-- The signs that are written with several characters or one, the longest first. -/
def signSpellings : List (String × Sign) :=
  [("<<=", .assignment (some .shiftLeft)), (">>=", .assignment (some .shiftRight)),
   ("*=", .assignment (some .multiply)), ("/=", .assignment (some .divide)),
   ("%=", .assignment (some .remainder)), ("+=", .assignment (some .add)),
   ("-=", .assignment (some .subtract)), ("&=", .assignment (some .bitAnd)),
   ("^=", .assignment (some .bitXor)), ("|=", .assignment (some .bitOr)),
   ("<<", .operation .shiftLeft), (">>", .operation .shiftRight),
   ("<=", .operation .lessOrEqual), (">=", .operation .greaterOrEqual),
   ("==", .operation .equal), ("!=", .operation .unequal), ("&&", .andThen), ("||", .orElse),
   ("*", .operation .multiply), ("/", .operation .divide), ("%", .operation .remainder),
   ("+", .operation .add), ("-", .operation .subtract), ("<", .operation .less),
   (">", .operation .greater), ("&", .operation .bitAnd), ("^", .operation .bitXor),
   ("|", .operation .bitOr), ("=", .assignment none), ("?", .question), (":", .colon),
   ("(", .opening), (")", .closing), ("!", .negation), ("~", .complement)]

/-- The signs of a text, of which at most `steps` are read. -/
def signsFrom : (steps : Nat) → ByteText → List Sign
  | 0, _ => []
  | _, [] => []
  | steps + 1, c :: rest =>
      if isSpace c then signsFrom steps rest
      else if c.isDigit then
        match leadingNumber? (c :: rest) with
        | some (value, rest) => .number (clampNumber false value) :: signsFrom steps rest
        | none => [.unknown]
      else if c.isAlpha || c == '_' then
        let inName (c : Char) : Bool := c.isAlphanum || c == '_'
        .variable (c :: rest.takeWhile inName) :: signsFrom steps (rest.dropWhile inName)
      else
        match signSpellings.find? fun (spelling, _) => spelling.toList.isPrefixOf (c :: rest) with
        | some (spelling, sign) => sign :: signsFrom steps ((c :: rest).drop spelling.length)
        | none => [.unknown]

inductive CalculationFault where
  | noOperand
  | zeroDivisor
  | openBracket
  | missingColon
  | moreSigns
  | notNumber (value : ByteText)
  /-- A quotient is beyond the greatest number, which kills the script. -/
  | overflow
deriving DecidableEq, Repr

/-- The wording of what is wrong with an expression; nothing if it kills the script. -/
def CalculationFault.message? (text : ByteText) (fault : CalculationFault) : Option ByteText :=
  let located (problem : String) : Option ByteText :=
    some ("arithmetic expression: ".toList ++ problem.toList ++ ": \"".toList ++ text ++ ['"'])
  match fault with
  | .noOperand => located "expecting primary"
  | .zeroDivisor => located "division by zero"
  | .openBracket => located "expecting ')'"
  | .missingColon => located "expecting ':'"
  | .moreSigns => located "expecting EOF"
  | .notNumber value => some ("Illegal number: ".toList ++ value)
  | .overflow => none

/-- What an expression reads and changes. -/
structure Calculation where
  rest : List Sign
  /-- The values that were put, the latest first. -/
  changes : List (ByteText × Int64)

abbrev Calculating := StateT Calculation (Except CalculationFault)

def peekSign : Calculating (Option Sign) := do
  return (← get).rest.head?

def dropSign : Calculating Unit :=
  modify fun calculation => { calculation with rest := calculation.rest.tail }

/-- The value of a variable, where `lookup` finds those that are not changed. -/
def variableValue (lookup : ByteText → Except CalculationFault Int64) (name : ByteText) :
    Calculating Int64 := do
  match (← get).changes.lookup name with
  | some value => return value
  | none => lookup name

/-- The operation divides the least number by minus one. -/
def overflows (operation : Operation) (a b : Int64) : Bool :=
  (operation == .divide || operation == .remainder) && a == Int64.minValue && b == -1

/-- What an operation makes of two numbers. -/
def operate (operation : Operation) (a b : Int64) : Calculating Int64 :=
  match operation.apply? a b with
  | some value => if overflows operation a b then throw .overflow else return value
  | none => throw .zeroDivisor

/-- Take an operand, where `inner` reads an expression in brackets. -/
def operand (lookup : ByteText → Except CalculationFault Int64) (inner : (idle : Bool) → Calculating Int64)
    (idle : Bool) : (steps : Nat) → Calculating Int64
  | 0 => throw .noOperand
  | steps + 1 => do
      let sign ← peekSign
      dropSign
      match sign with
      | some (.number value) => return value
      | some (.variable name) => if idle then return 0 else variableValue lookup name
      | some .opening =>
          let value ← inner idle
          match ← peekSign with
          | some .closing =>
              dropSign
              return value
          | _ => throw .openBracket
      | some (.operation .add) => operand lookup inner idle steps
      | some (.operation .subtract) => return -(← operand lookup inner idle steps)
      | some .negation => return truth ((← operand lookup inner idle steps) == 0)
      | some .complement => return ~~~(← operand lookup inner idle steps)
      | _ => throw .noOperand

/-- Take the operations behind a value that bind at least as tightly as a rank. -/
def operations (next : Calculating Int64) (idle : Bool) :
    (steps rank : Nat) → Int64 → Calculating Int64
  | 0, _, value => return value
  | steps + 1, rank, value => do
      match ← peekSign with
      | some (.operation operation) =>
          if operation.rank ≤ rank then
            dropSign
            let right ← next
            let right ← match operation.rank with
              | 0 => pure right
              | tighter + 1 => operations next idle steps tighter right
            let value ← if idle then pure right else operate operation value right
            operations next idle steps rank value
          else return value
      | _ => return value

/-- Take values that all have to be true, where `next` takes one. -/
def conjunction (next : (idle : Bool) → Calculating Int64) :
    (steps : Nat) → (idle : Bool) → Calculating Int64
  | 0, idle => next idle
  | steps + 1, idle => do
      let left ← next idle
      match ← peekSign with
      | some .andThen =>
          dropSign
          let right ← conjunction next steps (idle || left == 0)
          return truth (left != 0 && right != 0)
      | _ => return left

/-- Take values of which one has to be true, where `next` takes one. -/
def disjunction (next : (idle : Bool) → Calculating Int64) :
    (steps : Nat) → (idle : Bool) → Calculating Int64
  | 0, idle => next idle
  | steps + 1, idle => do
      let left ← next idle
      match ← peekSign with
      | some .orElse =>
          dropSign
          let right ← disjunction next steps (idle || left != 0)
          return truth (left != 0 || right != 0)
      | _ => return left

/-- Take a choice between two values, where `next` takes a value and `inner` an expression. -/
def choice (next inner : (idle : Bool) → Calculating Int64) :
    (steps : Nat) → (idle : Bool) → Calculating Int64
  | 0, idle => next idle
  | steps + 1, idle => do
      let test ← next idle
      match ← peekSign with
      | some .question =>
          dropSign
          let positive ← inner (idle || test == 0)
          match ← peekSign with
          | some .colon =>
              dropSign
              let negative ← choice next inner steps (idle || test != 0)
              return if test != 0 then positive else negative
          | _ => throw .missingColon
      | _ => return test

/-- Take an expression with all its conditions and assignments. -/
def expression (lookup : ByteText → Except CalculationFault Int64) :
    (depth : Nat) → (idle : Bool) → Calculating Int64
  | 0, _ => throw .noOperand
  | depth + 1, idle => do
      let inner := expression lookup depth
      let signs := (← get).rest.length + 1
      let arithmetic (idle : Bool) : Calculating Int64 := do
        let next := operand lookup inner idle signs
        operations next idle signs 7 (← next)
      match (← get).rest with
      | .variable name :: .assignment operation :: rest =>
          set { ← get with rest }
          let value ← inner idle
          if idle then return value
          else
            let value ← match operation with
              | none => pure value
              | some operation => operate operation (← variableValue lookup name) value
            modify fun calculation =>
              { calculation with changes := (name, value) :: calculation.changes }
            return value
      | _ => choice (disjunction (conjunction arithmetic signs) signs) inner signs idle

/-- The value of an expression and the variables that it changes, the earliest first, or what
is wrong with it. -/
def calculate (lookup : ByteText → Except CalculationFault Int64) (text : ByteText) :
    Except CalculationFault (Int64 × List (ByteText × Int64)) := do
  let signs := signsFrom text.length text
  let (value, calculation) ← (expression lookup (signs.length + 1) false).run ⟨signs, []⟩
  if calculation.rest.isEmpty then return (value, calculation.changes.reverse)
  else throw .moreSigns

def numberText (value : Int64) : ByteText :=
  if value < 0 then '-' :: decimalText value.toInt.natAbs else decimalText value.toInt.natAbs

end TypeStub.Tool.Shell
