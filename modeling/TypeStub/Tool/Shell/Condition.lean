import TypeStub.Tool.Shell.Arithmetic

/-!
Contract: the conditions of scripts.

Owns: `judge`, which says whether the condition that some arguments write holds.

An argument counts as an operator only where it can be one, so that a text may look like one.
-/

namespace TypeStub.Tool.Shell

inductive OperatorKind where
  | unary
  | binary
  /-- The operator joins conditions, or stands around them. -/
  | connective
deriving DecidableEq, Repr

def operatorKind? (text : ByteText) : Option OperatorKind :=
  let name := String.ofList text
  if ["-r", "-w", "-x", "-e", "-f", "-d", "-c", "-b", "-p", "-u", "-g", "-k", "-s", "-t", "-z",
      "-n", "-h", "-L", "-O", "-G", "-S"].contains name then some .unary
  else if ["=", "!=", "<", ">", "-eq", "-ne", "-ge", "-gt", "-le", "-lt", "-nt", "-ot",
      "-ef"].contains name then some .binary
  else if ["!", "-a", "-o", "(", ")"].contains name then some .connective
  else none

inductive ConditionFault where
  | missingArgument (operator : ByteText)
  /-- There is more behind the operand that should be the last one. -/
  | unexpectedOperator (operand : ByteText)
  | openBracket
  | notNumber (text : ByteText)
deriving DecidableEq, Repr

def ConditionFault.message : ConditionFault → ByteText
  | .missingArgument operator => operator ++ ": argument expected".toList
  | .unexpectedOperator operand => operand ++ ": unexpected operator".toList
  | .openBracket => "closing paren expected".toList
  | .notNumber text => "Illegal number: ".toList ++ text

/-- The kind of the operator in front of the arguments, if there is one. A text with one
operand is none if it can itself be an operand. -/
def leadingOperator? : List ByteText → Option OperatorKind
  | [] => none
  | first :: rest =>
      match operatorKind? first, rest with
      | some .unary, [] => none
      | some .unary, [_] => some .unary
      | some .unary, second :: _ :: _ =>
          if operatorKind? second = some .binary then none else some .unary
      | some .connective, [] => if first = ['('] then none else some .connective
      | kind, _ => kind

/-- What is known about files. -/
structure FileTests where
  holds : (operator : Char) → (name : ByteText) → Bool
  /-- Both names lead to the same file. -/
  same : (left right : ByteText) → Bool

def conditionNumber (text : ByteText) : Except ConditionFault Int64 :=
  let body := text.dropWhile isSpace
  let (negative, digits) := match body with
    | '-' :: rest => (true, rest)
    | '+' :: rest => (false, rest)
    | _ => (false, body)
  match decimal? ((digits.reverse.dropWhile isSpace).reverse) with
  | some value => .ok (clampNumber negative value)
  | none => .error (.notNumber text)

def judgeBinary (files : FileTests) (left operator right : ByteText) : Except ConditionFault Bool := do
  let numbers (test : Int64 → Int64 → Bool) : Except ConditionFault Bool := do
    return test (← conditionNumber left) (← conditionNumber right)
  match String.ofList operator with
  | "=" => return left == right
  | "!=" => return left != right
  | "<" => return List.lex left right (· < ·)
  | ">" => return List.lex right left (· < ·)
  | "-eq" => numbers (· == ·)
  | "-ne" => numbers (· != ·)
  | "-ge" => numbers fun a b => b ≤ a
  | "-gt" => numbers fun a b => b < a
  | "-le" => numbers fun a b => a ≤ b
  | "-lt" => numbers fun a b => a < b
  | "-ef" => return files.same left right
  | _ => return false

/-- A step of a judgement, over the arguments that are left. -/
abbrev Judging := StateT (List ByteText) (Except ConditionFault)

/-- Judge the condition in front of the arguments that has no connective, where `inner`
judges one in brackets. -/
def judgePrimary (files : FileTests) (inner : Judging Bool) : Judging Bool := do
  match ← get with
  | [] => return false
  | first :: rest =>
      match leadingOperator? (first :: rest) with
      | some .connective =>
          if first = ['('] then
            set rest
            if rest.head? = some [')'] then
              set rest.tail
              return false
            else
              let value ← inner
              match ← get with
              | [')'] :: rest =>
                  set rest
                  return value
              | _ => throw .openBracket
          else
            set rest
            return true
      | some .unary =>
          match rest with
          | [] => throw (.missingArgument first)
          | operand :: rest =>
              set rest
              match first with
              | ['-', 'z'] => return operand.isEmpty
              | ['-', 'n'] => return !operand.isEmpty
              | ['-', 't'] =>
                  let _ ← conditionNumber operand
                  return false
              | _ => return files.holds (first.getLastD ' ') operand
      | _ =>
          match rest with
          | operator :: behind =>
              if operatorKind? operator = some .binary then
                match behind with
                | [] => throw (.missingArgument operator)
                | operand :: rest =>
                    set rest
                    judgeBinary files first operator operand
              else
                set rest
                return !first.isEmpty
          | [] =>
              set rest
              return !first.isEmpty

def judgeNegated (files : FileTests) (inner : Judging Bool) : (steps : Nat) → Judging Bool
  | 0 => judgePrimary files inner
  | steps + 1 => do
      match ← get with
      | ['!'] :: rest =>
          if rest.isEmpty then judgePrimary files inner
          else
            set rest
            return !(← judgeNegated files inner steps)
      | _ => judgePrimary files inner

def judgeJoined (connective : ByteText) (join : Bool → Bool → Bool) (next : Judging Bool) :
    (steps : Nat) → Judging Bool
  | 0 => next
  | steps + 1 => do
      let value ← next
      match ← get with
      | operator :: rest =>
          if operator = connective then
            set rest
            return join value (← judgeJoined connective join next steps)
          else return value
      | [] => return value

def judgeWhole (files : FileTests) : (depth : Nat) → Judging Bool
  | 0 => return false
  | depth + 1 => do
      let steps := (← get).length
      let negated := judgeNegated files (judgeWhole files depth) steps
      judgeJoined ['-', 'o'] or (judgeJoined ['-', 'a'] and negated steps) steps

/-- The condition that some arguments write holds. With three arguments an operator in their
middle comes first, and brackets around all or a negation in front come before the rest. -/
def judge (files : FileTests) (arguments : List ByteText) : Except ConditionFault Bool :=
  let whole (arguments : List ByteText) : Except ConditionFault Bool := do
    let (value, rest) ← (judgeWhole files (arguments.length + 1)).run arguments
    if rest.isEmpty then return value
    else throw (.unexpectedOperator ((arguments.take (arguments.length - rest.length)).getLastD []))
  match arguments with
  | [] => .ok false
  | [left, operator, right] =>
      if operatorKind? operator = some .binary then judgeBinary files left operator right
      else if left = ['('] ∧ right = [')'] then whole [operator]
      else if left = ['!'] then (whole [operator, right]).map not
      else whole arguments
  | [first, second, third, last] =>
      if first = ['('] ∧ last = [')'] then whole [second, third]
      else if first = ['!'] then (whole [second, third, last]).map not
      else whole arguments
  | arguments => whole arguments

end TypeStub.Tool.Shell
