import TypeStub.Tool.ByteSet

/-!
Contract: the form of regular expressions over texts of bytes.

Owns:
- `ByteClass`, a set of bytes;
- `Condition`, what a place between two bytes has to look like, and `Surroundings`, what it
  looks like on one side;
- `Pattern`, the form of an expression, with its repetitions written out.

Does not own: the notation (`TypeStub.Tool.Pattern.Reader`) and the search
(`TypeStub.Tool.Expression`).

A bounded repetition stands for copies of its body: those that are needed one behind the
other, and those that can be left out inside of each other. A copy knows that it is one,
because a condition in front of a copy is not carried on to the bytes behind it.
-/

namespace TypeStub.Tool

/-- A set of bytes, as runs of neighbours. -/
structure ByteClass where
  runs : List (Char × Char)
deriving DecidableEq, Repr, Inhabited

namespace ByteClass

def has (set : ByteClass) (c : Char) : Bool :=
  set.runs.any fun (low, high) => low ≤ c && c ≤ high

/-- The runs of bytes in ascending order. -/
def runsOf : ByteText → List (Char × Char)
  | [] => []
  | c :: rest =>
      match runsOf rest with
      | (low, high) :: more =>
          if low.toNat = c.toNat + 1 then (c, high) :: more else (c, c) :: (low, high) :: more
      | [] => [(c, c)]

def ofTest (test : Char → Bool) : ByteClass :=
  ⟨runsOf (allBytes.filter test)⟩

def single (c : Char) : ByteClass :=
  ⟨[(c, c)]⟩

end ByteClass

def isWordByte (c : Char) : Bool :=
  c.isAlphanum || c == '_'

/-! ## Places -/

/-- What stands on one side of a place. -/
structure Surroundings where
  word : Bool
  line : Bool
  start : Bool
  finish : Bool
deriving DecidableEq, Repr, Inhabited

namespace Surroundings

/-- A byte that belongs to no word and ends no line. -/
def plain : Surroundings :=
  ⟨false, false, false, false⟩

def inWord : Surroundings :=
  { plain with word := true }

def atLine : Surroundings :=
  { plain with line := true }

/-- The start of the text, which is the start of a line. -/
def atStart : Surroundings :=
  { plain with line := true, start := true }

/-- The end of the text, which is the end of a line. -/
def atFinish : Surroundings :=
  { plain with line := true, finish := true }

/-- What a byte is. A line feed ends a line only if `byLine` says so. -/
def ofByte (byLine : Bool) (c : Char) : Surroundings :=
  if isWordByte c then inWord else if byLine && c == '\n' then atLine else plain

end Surroundings

/-- What has to stand on both sides of a place. -/
structure Condition where
  wordBefore : Bool
  noWordBefore : Bool
  lineBefore : Bool
  startBefore : Bool
  wordAfter : Bool
  noWordAfter : Bool
  lineAfter : Bool
  finishAfter : Bool
deriving DecidableEq, Repr, Inhabited

namespace Condition

def free : Condition :=
  ⟨false, false, false, false, false, false, false, false⟩

def insideWord : Condition :=
  { free with wordBefore := true, wordAfter := true }

def outsideWord : Condition :=
  { free with noWordBefore := true, noWordAfter := true }

def wordStart : Condition :=
  { free with noWordBefore := true, wordAfter := true }

def wordEnd : Condition :=
  { free with wordBefore := true, noWordAfter := true }

def lineStart : Condition :=
  { free with lineBefore := true }

def lineEnd : Condition :=
  { free with lineAfter := true }

def textStart : Condition :=
  { free with startBefore := true }

def textEnd : Condition :=
  { free with finishAfter := true }

def both (a b : Condition) : Condition :=
  ⟨a.wordBefore || b.wordBefore, a.noWordBefore || b.noWordBefore,
    a.lineBefore || b.lineBefore, a.startBefore || b.startBefore,
    a.wordAfter || b.wordAfter, a.noWordAfter || b.noWordAfter,
    a.lineAfter || b.lineAfter, a.finishAfter || b.finishAfter⟩

def isFree (condition : Condition) : Bool :=
  condition == free

/-- What stands before the place meets the condition. -/
def allowsBefore (condition : Condition) (before : Surroundings) : Bool :=
  (!condition.wordBefore || before.word) && (!condition.noWordBefore || !before.word) &&
    (!condition.lineBefore || before.line) && (!condition.startBefore || before.start)

/-- What stands behind the place meets the condition. -/
def allowsAfter (condition : Condition) (after : Surroundings) : Bool :=
  (!condition.wordAfter || after.word) && (!condition.noWordAfter || !after.word) &&
    (!condition.lineAfter || after.line) && (!condition.finishAfter || after.finish)

end Condition

/-! ## Expressions -/

/-- A regular expression. `copied` marks the parts that come from writing out a repetition. -/
inductive Pattern where
  | nothing
  | one (copied : Bool) (set : ByteClass)
  | edge (copied : Bool) (condition : Condition)
  /-- What the group holds once more. -/
  | again (copied : Bool) (number : Nat)
  | sequence (first second : Pattern)
  | either (copied : Bool) (first second : Pattern)
  | star (copied : Bool) (body : Pattern)
  /-- A group by its number, which counts from zero. One that can be left out forgets an empty
  occurrence behind another one. -/
  | group (number : Nat) (optional : Bool) (body : Pattern)
deriving DecidableEq, Repr, Inhabited

namespace Pattern

def isNothing : Pattern → Bool
  | .nothing => true
  | _ => false

def followedBy : Pattern → Pattern → Pattern
  | .nothing, second => second
  | first, .nothing => first
  | first, second => .sequence first second

/-- A copy of the pattern. No group of it can be left out. -/
def copy : Pattern → Pattern
  | .nothing => .nothing
  | .one _ set => .one true set
  | .edge _ condition => .edge true condition
  | .again _ number => .again true number
  | .sequence first second => .sequence first.copy second.copy
  | .either _ first second => .either true first.copy second.copy
  | .star _ body => .star true body.copy
  | .group number _ body => .group number false body.copy

def leftOut : Pattern → Pattern
  | .group number _ body => .group number true body
  | pattern => pattern

def withCopies (body : Pattern) : (count : Nat) → Pattern → Pattern
  | 0, pattern => pattern
  | count + 1, pattern => withCopies body count (.sequence pattern body.copy)

/-- The pattern, or nothing; and so many times more a copy behind it, or nothing. -/
def withOptionalCopies (body : Pattern) : (count : Nat) → Pattern → Pattern
  | 0, pattern => pattern
  | count + 1, pattern =>
      withOptionalCopies body count (.either false (.sequence pattern body.copy) .nothing)

/-- The pattern so many times; without `most` there is no bound. -/
def repeated (least : Nat) (most : Option Nat) (body : Pattern) : Pattern :=
  if body.isNothing || (least == 0 && most == some 0) then .nothing
  else
    let needed := if least = 0 then .nothing else withCopies body (least - 1) body
    if most = some least then needed
    else
      let further := (if least = 0 then body else body.copy).leftOut
      let optional := match most with
        | none => .star false further
        | some most =>
            withOptionalCopies further (most - least - 1) (.either false further .nothing)
      needed.followedBy optional

end Pattern

end TypeStub.Tool
