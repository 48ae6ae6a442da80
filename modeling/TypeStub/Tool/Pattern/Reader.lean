import TypeStub.Tool.Pattern.Bracket

/-!
Contract: the notation of regular expressions.

Owns:
- `PatternStyle`, the ways to read a text;
- `PatternSign`, the signs of the notation;
- `PatternText`, what a text writes, and `PatternText.read`.

In the basic notation a backslash makes signs of round brackets, braces, bars, plus signs and
question marks; in the extended one it takes their meaning away. A sign of repetition that
has nothing to repeat stands for itself in the basic notation and is a defect in the extended
one. Case that does not count is taken away by writing capital letters, but not from a letter
behind a backslash.
-/

namespace TypeStub.Tool

structure PatternStyle where
  extended : Bool
  folds : Bool
  byLine : Bool
  /-- Only what all such expressions share is known: a backslash makes no sign that the
  notation does not have of old, and a closing bracket that closes nothing stands for itself
  in the extended notation. -/
  strict : Bool
deriving DecidableEq, Repr

inductive PatternSign where
  | finish
  | literal (c : Char)
  | one (set : ByteClass)
  | edge (condition : Condition) (other : Option Condition)
  | again (number : Nat)
  /-- The item before it is repeated; `c` is how it looks. -/
  | repeated (c : Char) (least : Nat) (most : Option Nat)
  | openInterval
  | closeInterval
  | opening
  | closing
  | bar
  | bracket
  | backslash
deriving DecidableEq, Repr, Inhabited

namespace PatternStyle

/-- The sign that a character makes without a backslash in the extended notation. -/
def operator? : Char → Option PatternSign
  | '+' => some (.repeated '+' 1 none)
  | '?' => some (.repeated '?' 0 (some 1))
  | '(' => some .opening
  | ')' => some .closing
  | '|' => some .bar
  | '\x7b' => some .openInterval
  | '\x7d' => some .closeInterval
  | _ => none

/-- The sign that a character makes with a backslash in the basic notation. -/
def escapedOperator? (strict : Bool) (c : Char) : Option PatternSign :=
  if strict && "+?|".toList.contains c then none else operator? c

/-- A backslash before a digit but zero stands for the text of a group. -/
def reference? (c : Char) : Option PatternSign :=
  if c.isDigit && c != '0' then some (.again (c.toNat - '1'.toNat)) else none

/-- The sign that a character but a digit makes with a backslash in both notations. -/
def shorthand? : Char → Option PatternSign
  | '<' => some (.edge .wordStart none)
  | '>' => some (.edge .wordEnd none)
  | 'b' => some (.edge .wordStart (some .wordEnd))
  | 'B' => some (.edge .insideWord (some .outsideWord))
  | '\x60' => some (.edge .textStart none)
  | '\'' => some (.edge .textEnd none)
  | 'w' => some (.one (.ofTest isWordByte))
  | 'W' => some (.one (.ofTest fun c => !isWordByte c))
  | 's' => some (.one (.ofTest isSpace))
  | 'S' => some (.one (.ofTest fun c => !isSpace c))
  | _ => none

/-- The sign that a character makes with a backslash in both notations. -/
def escaped? (strict : Bool) (c : Char) : Option PatternSign :=
  if strict then reference? c else (reference? c).or (shorthand? c)

/-- In the basic notation a dollar sign before the text stands for an end. -/
def endsBefore (strict : Bool) : ByteText → Bool
  | [] => true
  | '\\' :: ')' :: _ => true
  | '\\' :: '|' :: _ => !strict
  | _ => false

/-- The sign at the beginning of a text, and the rest. `atStart` says that a circumflex is no
byte here in the basic notation. -/
def sign (style : PatternStyle) (atStart : Bool) : ByteText → PatternSign × ByteText
  | [] => (.finish, [])
  | ['\\'] => (.backslash, [])
  | '\\' :: c :: rest =>
      match escaped? style.strict c with
      | some sign => (sign, rest)
      | none =>
          if style.extended then (.literal c, rest)
          else ((escapedOperator? style.strict c).getD (.literal c), rest)
  | '[' :: rest => (.bracket, rest)
  | '.' :: rest => (.one (.ofTest fun c => !(style.byLine && c == '\n')), rest)
  | '*' :: rest => (.repeated '*' 0 none, rest)
  | '^' :: rest =>
      (if style.extended || atStart then .edge .lineStart none else .literal '^', rest)
  | '$' :: rest =>
      (if style.extended || endsBefore style.strict rest then .edge .lineEnd none else .literal '$', rest)
  | c :: rest =>
      let plain := PatternSign.literal (foldedByte style.folds c)
      (if style.extended then (operator? c).getD plain else plain, rest)

end PatternStyle

/-! ## Reading -/

/-- A text that is being read. -/
structure PatternCursor where
  sign : PatternSign
  rest : ByteText
  groups : Nat
  complete : List Nat
  /-- The groups that are asked for, a group each time. -/
  asked : List Nat
  /-- The name of a class stood in one pair of brackets only. -/
  loose : Bool

abbrev PatternReading :=
  ReaderT PatternStyle (StateT PatternCursor (Except PatternDefect))

namespace PatternReading

/-- Go on to the next sign. -/
def advance (atStart : Bool) : PatternReading Unit := do
  let style ← read
  modify fun cursor =>
    let (sign, rest) := style.sign atStart cursor.rest
    { cursor with sign, rest }

/-- The greatest number in braces. -/
def mostRepetitions : Nat :=
  32767

/-- The number in braces that a sign continues; none if there is no number at all, and
`some none` if it is no number. -/
def continued (number : Option (Option Nat)) : PatternSign → Option (Option Nat)
  | .literal c =>
      if !c.isDigit || number == some none then some none
      else
        let digit := c.toNat - '0'.toNat
        match number with
        | some (some value) => some (some (min (mostRepetitions + 1) (value * 10 + digit)))
        | _ => some (some digit)
  | _ => some none

/-- Read a number in braces up to a comma or the closing one; none if there is no number at
all, and `some none` if it is no number. -/
def number : (steps : Nat) → Option (Option Nat) → PatternReading (Option (Option Nat))
  | 0, value => pure value
  | steps + 1, value => do
      advance false
      match (← get).sign with
      | .finish => pure (some none)
      | .closeInterval => pure value
      | .literal ',' => pure value
      | sign => number steps (continued value sign)

def isComma (sign : PatternSign) : Bool :=
  sign == .literal ','

/-- Read the bounds of a repetition in braces. A missing number is zero in front of a comma
and no bound behind it. -/
def interval : PatternReading (Nat × Option Nat) := do
  let steps := (← get).rest.length + 1
  let first ← number steps none
  let sign := (← get).sign
  let least ← match first with
    | none => if isComma sign then pure (some 0) else throw .intervalContent
    | some least => pure least
  let ends : Bool := sign == .closeInterval
  let most : Option (Option Nat) ←
    if least.isNone then pure (some none)
    else if ends then pure (some least)
    else if isComma sign then number steps none
    else pure (some none)
  match least, most with
  | none, _ | _, some none =>
      throw (if (← get).sign == .finish then .openInterval else .intervalContent)
  | some least, most =>
      let most := most.bind id
      if most.any (· < least) || (← get).sign != .closeInterval then throw .intervalContent
      else if mostRepetitions < most.getD least then throw .tooBig
      else return (least, most)

/-- Repeat an item as often as the signs behind it say. -/
def repetitions : (steps : Nat) → Pattern → PatternReading Pattern
  | 0, item => pure item
  | steps + 1, item => do
      let bounds ← match (← get).sign with
        | .repeated _ least most => pure (some (least, most))
        | .openInterval => some <$> interval
        | _ => pure none
      match bounds with
      | none => pure item
      | some (least, most) =>
          advance false
          let item := item.repeated least most
          let again : Bool := match (← get).sign with
            | .repeated '*' _ _ | .openInterval => true
            | _ => false
          if again && !(← read).extended then throw .repetition
          else repetitions steps item

/-- The part of an expression that is being read. -/
inductive Part where
  | alternatives
  /-- Alternatives behind the given ones, with the groups that were complete before them. -/
  | further (before : Pattern) (known : List Nat)
  | items (before : Pattern) (isFirst : Bool)
  | item

/-- Read a part of an expression. At depth zero no bracket is open. -/
def part : (steps : Nat) → (depth : Nat) → Part → PatternReading Pattern
  | 0, _, _ => throw .tooBig
  | steps + 1, depth, .alternatives => do
      let known := (← get).complete
      let first ← part steps depth (.items .nothing true)
      part steps depth (.further first known)
  | steps + 1, depth, .further before known => do
      if (← get).sign != .bar then return before
      advance true
      let sign := (← get).sign
      if sign == .bar || sign == .finish || (depth != 0 && sign == .closing) then
        part steps depth (.further (.either false before .nothing) known)
      else
        let gained := (← get).complete
        modify ({ · with complete := known })
        let branch ← part steps depth (.items .nothing true)
        modify fun cursor => { cursor with complete := gained ++ cursor.complete }
        part steps depth (.further (.either false before branch) known)
  | steps + 1, depth, .items before isFirst => do
      let sign := (← get).sign
      if !isFirst && (sign == .bar || sign == .finish || (depth != 0 && sign == .closing)) then
        return before
      let item ← part steps depth .item
      part steps depth (.items (before.followedBy item) false)
  | steps + 1, depth, .item => do
      let style ← read
      let cursor ← get
      let literal (c : Char) : PatternReading Pattern := do
        advance false
        repetitions steps (.one false (.single c))
      match cursor.sign with
      | .bar | .finish => return .nothing
      | .backslash => throw .trailingBackslash
      | .literal c => literal c
      | .one set =>
          advance false
          repetitions steps (.one false set)
      | .bracket =>
          let ⟨members, loose, rest⟩ ← readBracket style.folds style.byLine cursor.rest
          set { cursor with rest, loose := cursor.loose || loose }
          advance false
          repetitions steps (.one false members)
      | .again number =>
          if !cursor.complete.contains number then throw .reference
          set { cursor with asked := number :: cursor.asked }
          advance false
          repetitions steps (.again false number)
      | .opening =>
          let number := cursor.groups
          set { cursor with groups := number + 1 }
          advance true
          let body ←
            if (← get).sign == .closing then pure .nothing
            else part steps (depth + 1) .alternatives
          if (← get).sign != .closing then throw .openGroup
          modify fun cursor => { cursor with complete := number :: cursor.complete }
          advance false
          repetitions steps (.group number false body)
      | .edge condition other =>
          advance false
          return match other with
            | none => .edge false condition
            | some other => .either false (.edge false condition) (.edge false other)
      | .openInterval => throw .repetition
      | .repeated c _ _ => if style.extended then throw .repetition else literal c
      | .closing => if style.strict then literal ')' else throw .closedGroup
      | .closeInterval => literal '\x7d'

end PatternReading

structure PatternText where
  pattern : Pattern
  groups : Nat
  asked : List Nat
  /-- The name of a class stands in one pair of brackets only. -/
  loose : Bool
deriving DecidableEq, Repr

def PatternText.read (style : PatternStyle) (text : ByteText) :
    Except PatternDefect PatternText := do
  let (sign, rest) := style.sign true text
  let reading := PatternReading.part (4 * text.length + 16) 0 .alternatives
  let (pattern, cursor) ← (reading.run style).run ⟨sign, rest, 0, [], [], false⟩
  return ⟨pattern, cursor.groups, cursor.asked, cursor.loose⟩

end TypeStub.Tool
