import TypeStub.Text.Blank
import TypeStub.TypeExpr.Node
import TypeStub.TypeExpr.Value

/-!
Contract: the reader of type expressions.

Owns:
- `Reading`, what a node contributes to the sequence it stands in;
- `Sequence.read`, alternatives separated by bars;
- `TypeExpr.parse`, the type expression that a text denotes.

A group in parentheses is read both as a type and as an argument list. The alternative in
which it stands uses one of the two, so a failure of the other is of no consequence.
-/

namespace TypeStub

open Malformed (Reason)

/-- What a node contributes: its token, or the two ways to read a group. -/
inductive Reading where
  | token (token : Token)
  | group (alone : Except Reason (Resolved TypeExpr))
      (arguments : Except Reason (Resolved (List TypeExpr)))

namespace Reading

def token? : Reading → Option Token
  | .token single => some single
  | .group _ _ => none

def isBar (reading : Reading) : Bool :=
  reading.token? == some .bar

end Reading

namespace Sequence

/-- The characters of tokens standing side by side, as one text; a group among them is an
error. -/
def joined : List Reading → Except Reason (List Char)
  | [] => .ok []
  | .token token :: rest => (joined rest).map (token.text ++ ·)
  | .group _ _ :: _ => .error .unexpectedGroup

/-- A word standing alone: a dotted name. -/
def ofWord (word : List Char) : Except Reason (Resolved TypeExpr) :=
  if Dotted.isComplete word then .ok (Dotted.resolve word)
  else .error (.emptySegment (String.ofList word))

/-- A word before a group: a generic on the arguments in the group. An iterator needs the
namespace `typing`. -/
def ofGeneric (word : List Char) (arguments : Except Reason (Resolved (List TypeExpr))) :
    Except Reason (Resolved TypeExpr) :=
  match Generic.ofDocName? (String.ofList word) with
  | none => .error (.unsupportedConstructor (String.ofList word))
  | some ctor =>
      match arguments with
      | .error reason => .error reason
      | .ok found =>
          if ctor.takes found.value.length then
            .ok ⟨.generic ctor found.value,
              if ctor = .iter then found.namespaces.insert "typing" else found.namespaces⟩
          else .error (.argumentCount ctor found.value.length)

/-- Read one alternative: a name, a generic, a type in parentheses, or else a value
expression spelled by several tokens. -/
def alternative : List Reading → Except Reason (Resolved TypeExpr)
  | [.token (.word word)] => ofWord word
  | [.token (.word word), .group _ arguments] => ofGeneric word arguments
  | [.group alone _] => alone
  | readings => (joined readings).bind Value.parse

/-- Read a sequence of alternatives. A single one is its own type. -/
def read (readings : List Reading) : Except Reason (Resolved TypeExpr) :=
  let alternatives := readings.splitOnP Reading.isBar
  if alternatives.any List.isEmpty then .error .emptyAlternative
  else
    match alternatives.mapM alternative with
    | .error reason => .error reason
    | .ok [only] => .ok only
    | .ok several => .ok ((Resolved.all several).map TypeExpr.union)

/-- Read a group as an argument list: a sequence between any two commas. -/
def readArguments (readings : List Reading) : Except Reason (Resolved (List TypeExpr)) :=
  ((Arguments.split Reading.token? readings).mapM read).map Resolved.all

end Sequence

namespace Node

mutual

/-- What a node contributes to its sequence. -/
def reading : Node → Reading
  | .token single => .token single
  | .group inner =>
      .group (Sequence.read (readings inner)) (Sequence.readArguments (readings inner))

def readings : List Node → List Reading
  | [] => []
  | head :: tail => reading head :: readings tail

end

end Node

namespace TypeExpr

/-- Read a text as a type expression; white space around it is of no account. -/
def parseChars (input : List Char) : Except Reason (Resolved TypeExpr) :=
  match Node.ofTokens (Token.ofText input) with
  | .error reason => .error reason
  | .ok nodes => Sequence.read (Node.readings nodes)

/-- The type expression that a text denotes, with the namespaces it refers to. -/
def parse (text : String) : Except Malformed (Resolved TypeExpr) :=
  let input := Text.trim text.toList
  match parseChars input with
  | .error reason => .error ⟨String.ofList input, reason⟩
  | .ok found => .ok found

end TypeExpr

end TypeStub
