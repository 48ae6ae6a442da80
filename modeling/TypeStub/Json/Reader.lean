import TypeStub.Json

/-!
Contract: the text of JSON.

Owns:
- the tokens of a JSON text, found by a machine that takes one character at a time;
- `Json.read?`, the value of a text, built by a machine that takes one token at a time.

Both machines refuse whatever the grammar of JSON does not allow. Neither has a limit on
nesting.
-/

namespace TypeStub.Json

/-! ## Tokens -/

inductive Token where
  | openBrace
  | closeBrace
  | openBracket
  | closeBracket
  | colon
  | comma
  | text (value : Option String)
  | scalar (value : Json)

/-- A natural number from decimal digits. -/
def ofDigits (digits : List Char) : Nat :=
  digits.foldl (fun number digit => number * 10 + (digit.toNat - '0'.toNat)) 0

/-- The digits that a text begins with, at least one, and the rest. -/
def digits? (text : List Char) : Option (List Char × List Char) :=
  match text.takeWhile Char.isDigit with
  | [] => none
  | digits => some (digits, text.dropWhile Char.isDigit)

/-- The exponent that a number ends with; none is zero. -/
def exponent? : List Char → Option Int
  | [] => some 0
  | mark :: rest =>
      if mark = 'e' ∨ mark = 'E' then
        match rest with
        | '-' :: digits =>
            (digits? digits).bind fun found =>
              if found.2.isEmpty then some (-(ofDigits found.1 : Int)) else none
        | _ =>
            (digits? (if rest.head? = some '+' then rest.tail else rest)).bind fun found =>
              if found.2.isEmpty then some (ofDigits found.1 : Int) else none
      else none

/-- The least number that 64 bits do not hold. -/
def leadingBound : Nat :=
  Nat.pow 2 64

/-- Append digits to a number as long as the result is below `leadingBound`, and count the
digits that are left. -/
def leading (start : Nat) : List Char → Nat × Nat
  | [] => (start, 0)
  | digit :: rest =>
      let longer := start * 10 + (digit.toNat - '0'.toNat)
      if longer < leadingBound then leading longer rest else (start, rest.length + 1)

/-- The number with the leading digits of a whole part and a fraction. Digits of the whole
part that are left out count in the exponent, those of the fraction do not. -/
def ofParts (negative : Bool) (whole fraction : List Char) (exponent : Int) (integral : Bool) :
    Decimal :=
  let (start, surplus) := leading 0 whole
  let (digits, unused) := leading start fraction
  ⟨negative, digits, exponent + surplus - (fraction.length - unused : Nat), integral⟩

/-- The number that a text without a sign is. A leading zero stands alone. -/
def magnitude? (negative : Bool) (text : List Char) : Option Decimal :=
  match digits? text with
  | none => none
  | some (whole, rest) =>
      if whole.head? = some '0' ∧ whole.length ≠ 1 then none
      else
        match rest with
        | '.' :: after =>
            (digits? after).bind fun found =>
              (exponent? found.2).map fun exponent =>
                ofParts negative whole found.1 exponent false
        | _ =>
            (exponent? rest).map fun exponent =>
              ofParts negative whole [] exponent rest.isEmpty

/-- The number that a text is. -/
def decimal? : List Char → Option Decimal
  | '-' :: unsigned => magnitude? true unsigned
  | unsigned => magnitude? false unsigned

/-- The value of a run of letters, digits and signs. -/
def scalar? (run : List Char) : Option Json :=
  if run = "null".toList then some .null
  else if run = "true".toList then some (.bool true)
  else if run = "false".toList then some (.bool false)
  else (decimal? run).map .number

/-- The text with the given code units, where a pair of surrogates is one character. A
surrogate that stands alone makes it no text. -/
def ofUnits (read : List Char) : List Nat → Option String
  | [] => some (String.ofList read.reverse)
  | high :: low :: rest =>
      if 0xD800 ≤ high ∧ high ≤ 0xDBFF then
        if 0xDC00 ≤ low ∧ low ≤ 0xDFFF then
          ofUnits (Char.ofNat (0x10000 + (high - 0xD800) * 0x400 + (low - 0xDC00)) :: read) rest
        else none
      else if 0xDC00 ≤ high ∧ high ≤ 0xDFFF then none
      else ofUnits (Char.ofNat high :: read) (low :: rest)
  | [unit] =>
      if 0xD800 ≤ unit ∧ unit ≤ 0xDFFF then none
      else some (String.ofList (Char.ofNat unit :: read).reverse)

/-- Where the machine for tokens stands. Runs and units are held latest first. -/
inductive LexState where
  | between
  /-- In a run of letters, digits and signs. -/
  | run (read : List Char)
  | quoted (units : List Nat)
  | escaped (units : List Nat)
  /-- In a numeric escape that lacks digits. -/
  | numeric (units : List Nat) (missing code : Nat)

def hexDigit? (c : Char) : Option Nat :=
  if c.isDigit then some (c.toNat - '0'.toNat)
  else if 'a' ≤ c ∧ c ≤ 'f' then some (c.toNat - 'a'.toNat + 10)
  else if 'A' ≤ c ∧ c ≤ 'F' then some (c.toNat - 'A'.toNat + 10)
  else none

/-- The character that follows a backslash, for escapes of one character. -/
def escape? (c : Char) : Option Nat :=
  if c = '"' ∨ c = '\\' ∨ c = '/' then some c.toNat
  else if c = 'b' then some 8
  else if c = 'f' then some 12
  else if c = 'n' then some 10
  else if c = 'r' then some 13
  else if c = 't' then some 9
  else none

def isRunChar (c : Char) : Bool :=
  c.isAlphanum || c == '+' || c == '-' || c == '.'

/-- A character outside strings, when no run goes on. -/
def lexMark (tokens : List Token) (c : Char) : Option (LexState × List Token) :=
  if c = ' ' ∨ c = '\n' ∨ c = '\r' ∨ c = '\t' then some (.between, tokens)
  else if c = '{' then some (.between, .openBrace :: tokens)
  else if c = '}' then some (.between, .closeBrace :: tokens)
  else if c = '[' then some (.between, .openBracket :: tokens)
  else if c = ']' then some (.between, .closeBracket :: tokens)
  else if c = ':' then some (.between, .colon :: tokens)
  else if c = ',' then some (.between, .comma :: tokens)
  else if c = '"' then some (.quoted [], tokens)
  else if isRunChar c then some (.run [c], tokens)
  else none

/-- One character: the state after it and the tokens so far, latest first. -/
def lexStep : LexState × List Token → Char → Option (LexState × List Token)
  | (.between, tokens), c => lexMark tokens c
  | (.run read, tokens), c =>
      if isRunChar c then some (.run (c :: read), tokens)
      else (scalar? read.reverse).bind fun value => lexMark (.scalar value :: tokens) c
  | (.quoted units, tokens), c =>
      if c = '"' then some (.between, .text (ofUnits [] units.reverse) :: tokens)
      else if c = '\\' then some (.escaped units, tokens)
      else if c.toNat < 0x20 then none
      else some (.quoted (c.toNat :: units), tokens)
  | (.escaped units, tokens), c =>
      if c = 'u' then some (.numeric units 4 0, tokens)
      else (escape? c).map fun code => (.quoted (code :: units), tokens)
  | (.numeric units missing code, tokens), c =>
      (hexDigit? c).map fun digit =>
        let longer := code * 16 + digit
        if missing ≤ 1 then (.quoted (longer :: units), tokens)
        else (.numeric units (missing - 1) longer, tokens)

def lex? (text : List Char) : Option (List Token) :=
  match text.foldlM lexStep (.between, []) with
  | some (.between, tokens) => some tokens.reverse
  | some (.run read, tokens) =>
      (scalar? read.reverse).map fun value => (Token.scalar value :: tokens).reverse
  | _ => none

/-! ## Values -/

/-- An array or object that is not complete, with what it holds so far, latest first. -/
inductive Frame where
  | array (items : List Json)
  | object (fields : List (Option String × Json))
  /-- An object whose last field lacks its value. -/
  | field (name : Option String) (fields : List (Option String × Json))

/-- Where the machine for values stands. -/
inductive State where
  | value (stack : List Frame)
  | firstItem (stack : List Frame)
  | name (fields : List (Option String × Json)) (stack : List Frame)
  /-- The name of the first field of an object is due, or the object's end. -/
  | firstName (stack : List Frame)
  | colon (name : Option String) (fields : List (Option String × Json)) (stack : List Frame)
  /-- The innermost frame has all its parts so far. -/
  | between (frame : Frame) (stack : List Frame)
  | complete (value : Json)

/-- Put a value into the innermost frame. -/
def supply (value : Json) : List Frame → Option State
  | [] => some (.complete value)
  | .array items :: stack => some (.between (.array (value :: items)) stack)
  | .field name fields :: stack => some (.between (.object ((name, value) :: fields)) stack)
  | .object _ :: _ => none

def begin? (stack : List Frame) : Token → Option State
  | .openBracket => some (.firstItem stack)
  | .openBrace => some (.firstName stack)
  | .text value => supply (.text value) stack
  | .scalar value => supply value stack
  | _ => none

def step : State → Token → Option State
  | .value stack, token => begin? stack token
  | .firstItem stack, .closeBracket => supply (.array []) stack
  | .firstItem stack, token => begin? (.array [] :: stack) token
  | .name fields stack, .text name => some (.colon name fields stack)
  | .firstName stack, .closeBrace => supply (.object []) stack
  | .firstName stack, .text name => some (.colon name [] stack)
  | .colon name fields stack, .colon => some (.value (.field name fields :: stack))
  | .between (.array items) stack, .comma => some (.value (.array items :: stack))
  | .between (.array items) stack, .closeBracket => supply (.array items.reverse) stack
  | .between (.object fields) stack, .comma => some (.name fields stack)
  | .between (.object fields) stack, .closeBrace => supply (.object fields.reverse) stack
  | _, _ => none

def ofTokens? (tokens : List Token) : Option Json :=
  match tokens.foldlM step (.value []) with
  | some (.complete value) => some value
  | _ => none

/-- The value of a JSON text. -/
def read? (text : String) : Option Json :=
  (lex? text.toList).bind ofTokens?

end TypeStub.Json
