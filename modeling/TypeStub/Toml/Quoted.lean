import TypeStub.Json.Reader

/-!
Contract: the strings of TOML.

Owns: `Quoted.read?`, which reads a string of any of the four kinds at the beginning of a
text, and `Quoted.readLine?` for the two kinds that keep to a line.

All readers hold what they have read latest first.
-/

namespace TypeStub.Toml.Quoted

/-- A character that may stand in strings and comments: a tab, or anything but a control
character. -/
def isPlain (c : Char) : Bool :=
  c == '\t' || (0x20 ≤ c.toNat && c.toNat != 0x7F)

def codePoint? (digits : List Char) : Option Char :=
  (digits.mapM Json.hexDigit?).bind fun values =>
    let code := values.foldl (fun number value => number * 16 + value) 0
    if code.isValidChar then some (Char.ofNat code) else none

/-- The character that a letter after a backslash stands for. -/
def escape? (c : Char) : Option Char :=
  if c = '"' ∨ c = '\\' then some c
  else if c = 'b' then some '\x08'
  else if c = 't' then some '\t'
  else if c = 'n' then some '\n'
  else if c = 'f' then some '\x0c'
  else if c = 'r' then some '\r'
  else none

/-- The character of an escape after its backslash, and the number of characters of the
escape. -/
def escaped? : List Char → Option (Char × Nat)
  | [] => none
  | 'u' :: rest =>
      if rest.length < 4 then none else (codePoint? (rest.take 4)).map fun c => (c, 5)
  | 'U' :: rest =>
      if rest.length < 8 then none else (codePoint? (rest.take 8)).map fun c => (c, 9)
  | letter :: _ => (escape? letter).map fun c => (c, 1)

/-- A literal string on one line, after its opening quote. -/
def literal? (read : List Char) : List Char → Option (List Char × List Char)
  | [] => none
  | c :: rest =>
      if c = '\'' then some (read.reverse, rest)
      else if isPlain c then literal? (c :: read) rest
      else none

/-- A basic string on one line, after its opening quote. `skip` characters belong to an
escape already read. -/
def basic? (skip : Nat) (read : List Char) : List Char → Option (List Char × List Char)
  | [] => none
  | c :: rest =>
      match skip with
      | left + 1 => basic? left read rest
      | 0 =>
          if c = '"' then some (read.reverse, rest)
          else if c = '\\' then
            match escaped? rest with
            | none => none
            | some (found, width) => basic? width (found :: read) rest
          else if isPlain c then basic? 0 (c :: read) rest
          else none

/-- What a run of quotes contributes where three of them end a string: the quotes before
the ending three, and how many characters the run takes. A run of less than three ends
nothing. -/
def closing? (quote : Char) (text : List Char) : Option Nat :=
  let run := ((text.take 5).takeWhile (· == quote)).length
  if run < 3 then none else some (run - 3)

/-- A literal string over several lines, after its opening quotes. `skip` characters are
already taken account of. -/
def literalLines? (skip : Nat) (read : List Char) : List Char → Option (List Char × List Char)
  | [] => none
  | c :: rest =>
      match skip with
      | left + 1 => literalLines? left read rest
      | 0 =>
          match closing? '\'' (c :: rest) with
          | some extra =>
              some ((List.replicate extra '\'' ++ read).reverse, rest.drop (extra + 2))
          | none =>
              if c = '\r' then
                if rest.head? = some '\n' then literalLines? 1 ('\n' :: read) rest else none
              else if isPlain c || c == '\n' then literalLines? 0 (c :: read) rest
              else none

def isLineBlank (c : Char) : Bool :=
  c == ' ' || c == '\t'

/-- The number of characters of a line ending at the beginning of a text; zero if there is
none. -/
def lineEnding : List Char → Nat
  | '\n' :: _ => 1
  | '\r' :: '\n' :: _ => 2
  | _ => 0

/-- The number of blanks and line endings that a text begins with. -/
def blankRun : List Char → Nat
  | '\r' :: '\n' :: rest => blankRun rest + 2
  | c :: rest => if isLineBlank c || c == '\n' then blankRun rest + 1 else 0
  | [] => 0

/-- The number of characters that a backslash at the end of a line removes after itself:
blanks, a line ending, and all blanks and line endings that follow. -/
def continuation? (text : List Char) : Option Nat :=
  let blanks := (text.takeWhile isLineBlank).length
  let ending := lineEnding (text.drop blanks)
  if ending = 0 then none else some (blankRun text)

/-- A basic string over several lines, after its opening quotes. `skip` characters are
already taken account of. -/
def basicLines? (skip : Nat) (read : List Char) : List Char → Option (List Char × List Char)
  | [] => none
  | c :: rest =>
      match skip with
      | left + 1 => basicLines? left read rest
      | 0 =>
          match closing? '"' (c :: rest) with
          | some extra =>
              some ((List.replicate extra '"' ++ read).reverse, rest.drop (extra + 2))
          | none =>
              if c = '\\' then
                match continuation? rest with
                | some width => basicLines? width read rest
                | none =>
                    match escaped? rest with
                    | none => none
                    | some (found, width) => basicLines? width (found :: read) rest
              else if c = '\r' then
                if rest.head? = some '\n' then basicLines? 1 ('\n' :: read) rest else none
              else if isPlain c || c == '\n' then basicLines? 0 (c :: read) rest
              else none

/-- A string that keeps to a line, and the text after it. -/
def readLine? : List Char → Option (List Char × List Char)
  | '"' :: rest => basic? 0 [] rest
  | '\'' :: rest => literal? [] rest
  | _ => none

/-- A string, and the text after it. A line ending right after three quotes is no part of
the string. -/
def read? : List Char → Option (List Char × List Char)
  | '"' :: '"' :: '"' :: rest => basicLines? 0 [] (rest.drop (lineEnding rest))
  | '\'' :: '\'' :: '\'' :: rest => literalLines? 0 [] (rest.drop (lineEnding rest))
  | line => readLine? line

end TypeStub.Toml.Quoted
