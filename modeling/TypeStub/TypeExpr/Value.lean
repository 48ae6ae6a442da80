import TypeStub.TypeExpr.Dotted
import TypeStub.TypeExpr.Malformed

/-!
Contract: value expressions, the types that are written without parentheses: names and
literals with arguments in square brackets, such as `dict[str, int]`.

Owns:
- `Lexeme` and `Value.lex`, which divides a text into lexemes or refuses it;
- `Value.read`, which reads a whole lexeme list as one expression.

White space is no part of these texts: tokens are joined before they get here.
-/

namespace TypeStub

open Malformed (Reason)

inductive Lexeme where
  | identifier (text : List Char)
  | literal (text : List Char)
  | mark (mark : Mark)
deriving DecidableEq, Repr

def Lexeme.text : Lexeme → List Char
  | .identifier text => text
  | .literal text => text
  | .mark .openBracket => ['[']
  | .mark .closeBracket => [']']
  | .mark .comma => [',']

namespace Value

/-! ## Lexemes -/

def isNumberPart (c : Char) : Bool :=
  c.isDigit || c == '.'

def isIdentifierPart (c : Char) : Bool :=
  c.isAlphanum || c == '_' || c == '.'

/-- The rest of an identifier and what follows it. Two dots in a row end it, since they may
begin an ellipsis. -/
def identifierRun : List Char → List Char × List Char
  | [] => ([], [])
  | '.' :: '.' :: rest => ([], '.' :: '.' :: rest)
  | c :: rest =>
      if isIdentifierPart c then
        let run := identifierRun rest
        (c :: run.1, run.2)
      else ([], c :: rest)

/-- The lexeme that begins with the character `c`, and the text after it. -/
def lexeme (c : Char) (rest : List Char) : Except Reason (Lexeme × List Char) :=
  if c = '[' then .ok (.mark .openBracket, rest)
  else if c = ']' then .ok (.mark .closeBracket, rest)
  else if c = ',' then .ok (.mark .comma, rest)
  else if c = '.' ∧ rest.take 2 = ['.', '.'] then .ok (.literal ['.', '.', '.'], rest.drop 2)
  else if c = '\'' ∨ c = '"' then
    match rest.dropWhile (· != c) with
    | [] => .error .unterminatedText
    | quote :: after => .ok (.literal (c :: (rest.takeWhile (· != c) ++ [quote])), after)
  else if c.isDigit then
    .ok (.literal (c :: rest.takeWhile isNumberPart), rest.dropWhile isNumberPart)
  else if c.isAlpha || c == '_' then
    .ok (.identifier (c :: (identifierRun rest).1), (identifierRun rest).2)
  else .error (.unexpectedCharacter c)

private theorem length_dropWhile_le (p : Char → Bool) (text : List Char) :
    (text.dropWhile p).length ≤ text.length :=
  (List.dropWhile_sublist p).length_le

theorem length_identifierRun_le (text : List Char) :
    (identifierRun text).2.length ≤ text.length := by
  fun_induction identifierRun text with
  | case1 => simp
  | case2 => simp
  | case3 c rest _ _ run inductionHypothesis =>
      have bound : run.2.length ≤ rest.length := inductionHypothesis
      simp only [List.length_cons]
      omega
  | case4 => simp

/-- A lexeme takes at least its first character from the text. -/
theorem length_lexeme_le {c : Char} {rest after : List Char} {found : Lexeme}
    (read : lexeme c rest = .ok (found, after)) : after.length ≤ rest.length := by
  unfold lexeme at read
  split at read
  · cases read; exact Nat.le_refl _
  split at read
  · cases read; exact Nat.le_refl _
  split at read
  · cases read; exact Nat.le_refl _
  split at read
  · cases read; simp
  split at read
  · split at read
    · cases read
    · rename_i quote remaining dropped
      cases read
      have bound := length_dropWhile_le (· != c) rest
      rw [dropped] at bound
      simp only [List.length_cons] at bound
      omega
  split at read
  · cases read; exact length_dropWhile_le _ rest
  split at read
  · cases read; exact length_identifierRun_le rest
  · cases read

def lex : List Char → Except Reason (List Lexeme)
  | [] => .ok []
  | c :: rest =>
      match _read : lexeme c rest with
      | .error reason => .error reason
      | .ok (first, after) =>
          match lex after with
          | .error reason => .error reason
          | .ok later => .ok (first :: later)
termination_by text => text.length
decreasing_by
  have := length_lexeme_le _read
  simp only [List.length_cons]
  omega

/-! ## Expressions -/

/-- A base whose argument list is still open, with the arguments before the current one,
latest first. -/
structure Frame where
  base : TypeExpr
  earlier : List TypeExpr
deriving Repr

/-- The subscript that a frame becomes when its last argument is read. -/
def Frame.close (frame : Frame) (last : TypeExpr) : TypeExpr :=
  .subscript frame.base (frame.earlier.reverse ++ [last])

mutual

/-- Read an operand inside the open argument lists `frames`; `found` holds the namespaces
that the expression refers to so far. -/
def operand (frames : List Frame) (found : NameSet) :
    List Lexeme → Except Reason (Resolved TypeExpr)
  | [] => .error .missingExpression
  | .identifier text :: rest =>
      if Dotted.isComplete text then
        suffix frames (found ∪ Dotted.namespaceOf text) (.name (String.ofList text)) rest
      else .error (.invalidName (String.ofList text))
  | .literal text :: rest => suffix frames found (.literal (String.ofList text)) rest
  | .mark mark :: _ => .error (.unexpectedMark mark)

/-- Read what follows a complete expression: an argument list of its own, or the rest of
the argument list it stands in. A comma may stand before the closing bracket. -/
def suffix (frames : List Frame) (found : NameSet) (expr : TypeExpr) :
    List Lexeme → Except Reason (Resolved TypeExpr)
  | .mark .openBracket :: rest => operand (⟨expr, []⟩ :: frames) found rest
  | .mark .closeBracket :: rest =>
      match frames with
      | [] => .error .surplus
      | frame :: outer => suffix outer found (frame.close expr) rest
  | .mark .comma :: .mark .closeBracket :: rest =>
      match frames with
      | [] => .error .surplus
      | frame :: outer => suffix outer found (frame.close expr) rest
  | .mark .comma :: rest =>
      match frames with
      | [] => .error .surplus
      | frame :: outer => operand (⟨frame.base, expr :: frame.earlier⟩ :: outer) found rest
  | [] => if frames.isEmpty then .ok ⟨expr, found⟩ else .error .unclosedBracket
  | _ :: _ => if frames.isEmpty then .error .surplus else .error .unclosedBracket

end

def read (lexemes : List Lexeme) : Except Reason (Resolved TypeExpr) :=
  operand [] ∅ lexemes

def parse (text : List Char) : Except Reason (Resolved TypeExpr) :=
  match lex text with
  | .error reason => .error reason
  | .ok lexemes => read lexemes

end Value

end TypeStub
