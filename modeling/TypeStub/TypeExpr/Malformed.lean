import TypeStub.TypeExpr

/-!
Contract: why a text is no type expression.

Owns:
- `Mark`, the punctuation of value expressions;
- `Malformed`, the text that was refused with the reason, and the wording of each reason.
-/

namespace TypeStub

inductive Mark where
  | openBracket
  | closeBracket
  | comma
deriving DecidableEq, Repr

/-- The name under which a misplaced mark is reported. -/
def Mark.label : Mark → String
  | .openBracket => "LBracket"
  | .closeBracket => "RBracket"
  | .comma => "Comma"

namespace Malformed

/-- What is wrong with a type expression. -/
inductive Reason where
  | unmatchedClosing
  | unclosedOpening
  | emptyAlternative
  | unsupportedConstructor (name : String)
  | argumentCount (ctor : Generic) (count : Nat)
  /-- A group in parentheses stands inside a value expression. -/
  | unexpectedGroup
  | emptySegment (name : String)
  | unterminatedText
  | unexpectedCharacter (character : Char)
  | invalidName (name : String)
  | unexpectedMark (mark : Mark)
  | missingExpression
  | unclosedBracket
  /-- Something follows a complete value expression. -/
  | surplus
deriving DecidableEq, Repr

def Reason.message : Reason → String
  | .unmatchedClosing => "unmatched ')'"
  | .unclosedOpening => "unclosed '('"
  | .emptyAlternative => "empty alternative"
  | .unsupportedConstructor name => "constructor " ++ name ++ " is not supported"
  | .argumentCount ctor count =>
      ctor.docName ++ " takes exactly one argument, got " ++ toString count
  | .unexpectedGroup => "unexpected parenthesized group"
  | .emptySegment name => "empty path segment in " ++ name
  | .unterminatedText => "unterminated string literal"
  | .unexpectedCharacter character => "unexpected character '" ++ character.toString ++ "'"
  | .invalidName name => "invalid name " ++ name
  | .unexpectedMark mark => "unexpected " ++ mark.label
  | .missingExpression => "expected an expression"
  | .unclosedBracket => "unclosed '['"
  | .surplus => "expected a single expression"

end Malformed

/-- A text that is no type expression: the text without surrounding white space, and what
is wrong with it. -/
structure Malformed where
  input : String
  reason : Malformed.Reason
deriving DecidableEq, Repr

/-- The whole message about a malformed type expression. -/
def Malformed.message (malformed : Malformed) : String :=
  "not able to parse type \"" ++ malformed.input ++ "\": " ++ malformed.reason.message

end TypeStub
