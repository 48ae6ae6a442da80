import TypeStub.Tool.Expression

/-!
Contract: programs that edit a text line by line.

Owns:
- `Address` and `Selection`, which say for which lines a command is meant;
- `Action` and `Command`;
- `ProgramFault`, why a text writes no program, with its wording.

A program is a row of commands. Blocks and jumps name places in it by their index.
-/

namespace TypeStub.Tool.LineEditor

inductive Address where
  | any
  | line (number : Nat)
  /-- The first line and every further one after so many. -/
  | stepped (first step : Nat)
  | last
  /-- The lines where an expression occurs, or where the one occurs that was used last. -/
  | matching (expression : Option Expression)

inductive RangeEnd where
  | address (address : Address)
  /-- So many lines after the first one. -/
  | after (count : Nat)
  /-- At the next line whose number is a multiple. -/
  | multiple (base : Nat)

/-- For which lines a command is meant. -/
inductive Selection where
  | every
  | single (address : Address)
  | range (first : Address) (finish : RangeEnd)

/-- The command is meant for all lines. -/
def Selection.isEvery : Selection → Bool
  | .every => true
  | _ => false

/-- The lines where the place in front of all lines is worked on, which is when the first one
is there. -/
def Selection.fromFirst : Selection → Selection
  | .single (.line 0) => .single (.line 1)
  | selection => selection

inductive Destination where
  | out
  | err
  | file (name : ByteText)
deriving DecidableEq, Repr

inductive LetterCase where
  | upper
  | lower
deriving DecidableEq, Repr

/-- What becomes of the case of a text: of its first letter, and of all others. -/
structure CaseChange where
  first : Option LetterCase
  all : Option LetterCase
deriving DecidableEq, Repr

/-- A part of a replacement: a text, and what a group holds. Group zero is the whole
occurrence. -/
structure ReplacementPart where
  text : ByteText
  group : Option Nat
  change : CaseChange
deriving DecidableEq, Repr

/-- What to put for the occurrences of an expression. -/
structure Substitution where
  /-- The expression, or the one that was used last. -/
  expression : Option Expression
  replacement : List ReplacementPart
  /-- The first occurrence that is replaced; zero if none is named. -/
  nth : Nat
  /-- All later occurrences are replaced too. -/
  every : Bool
  prints : Bool
  /-- A text with a replacement is run as a script, and its output is put for it. -/
  evaluates : Bool
  writes : Option Destination

inductive JumpCondition where
  | always
  /-- There was a replacement since the last line was read or the last such jump. -/
  | replaced
  | notReplaced
deriving DecidableEq, Repr

inductive Action where
  /-- The commands of a block follow, up to its end at the given place. -/
  | block (finish : Nat)
  | blockEnd
  | label (name : ByteText)
  | jump (condition : JumpCondition) (target : Nat)
  | append (text : ByteText)
  | insert (text : ByteText)
  | change (text : ByteText)
  | substitute (substitution : Substitution)
  | map (pairs : List (Char × Char))
  | delete
  | deleteLine
  | print
  | printLine
  | printNumber
  | printName
  /-- Print the text with all characters visible, in lines of a width. -/
  | list (width : Option Nat)
  | next
  | nextAppend
  /-- Stop, with a code; `prints` says that the text is printed before. -/
  | quit (code : Option Nat) (prints : Bool)
  | hold
  | holdAppend
  | recall
  | recallAppend
  | exchange
  | clear
  | readFile (name : ByteText)
  | copyFile (name : ByteText)
  /-- Add the next line of a file after the text. -/
  | readLine (name : ByteText)
  | write (destination : Destination)
  | writeLine (destination : Destination)
  /-- Run a script, or the text itself, and print what it writes. -/
  | evaluate (script : ByteText)
  /-- A command that is known but has no meaning any more. -/
  | obsolete (letter : Char) (argument : Option Nat)

structure Command where
  selection : Selection
  inverted : Bool
  action : Action

structure Program where
  commands : Array Command
  /-- Lines are printed only on demand. -/
  quiet : Bool

/-! ## Faults -/

inductive ProgramProblem where
  | unknownCommand (letter : Char)
  | missingCommand
  | unexpectedComma
  | unexpectedBrace
  | openBrace
  | addressedBrace
  | addressedLabel
  | addressedComment
  | twoAddresses
  | repeatedNegation
  | relativeFirst
  | lineZero
  | openAddress
  | openSubstitution
  | openMapping
  | unequalMapping
  | unknownFlag
  | repeatedPrint
  | repeatedEvery
  | repeatedNumber
  | zeroNumber
  | extraCharacters
  | missingLabel
  | missingText
  | incomplete
  | missingFile
  | repeatedEscape
  | newerVersion
  | unknownGroup (number : Nat)
  | emptyWithFlags
  | noExpression
  | sandboxed
  | pattern (defect : PatternDefect)
deriving DecidableEq, Repr

def ProgramProblem.message : ProgramProblem → ByteText
  | .unknownCommand letter => "unknown command: \x60".toList ++ [letter, '\'']
  | .missingCommand => "missing command".toList
  | .unexpectedComma => "unexpected \x60,'".toList
  | .unexpectedBrace => "unexpected \x60\x7d'".toList
  | .openBrace => "unmatched \x60\x7b'".toList
  | .addressedBrace => "\x60\x7d' doesn't want any addresses".toList
  | .addressedLabel => ": doesn't want any addresses".toList
  | .addressedComment => "comments don't accept any addresses".toList
  | .twoAddresses => "command only uses one address".toList
  | .repeatedNegation => "multiple \x60!'s".toList
  | .relativeFirst => "invalid usage of +N or ~N as first address".toList
  | .lineZero => "invalid usage of line address 0".toList
  | .openAddress => "unterminated address regex".toList
  | .openSubstitution => "unterminated \x60s' command".toList
  | .openMapping => "unterminated \x60y' command".toList
  | .unequalMapping => "strings for \x60y' command are different lengths".toList
  | .unknownFlag => "unknown option to \x60s'".toList
  | .repeatedPrint => "multiple \x60p' options to \x60s' command".toList
  | .repeatedEvery => "multiple \x60g' options to \x60s' command".toList
  | .repeatedNumber => "multiple number options to \x60s' command".toList
  | .zeroNumber => "number option to \x60s' command may not be zero".toList
  | .extraCharacters => "extra characters after command".toList
  | .missingLabel => "\":\" lacks a label".toList
  | .missingText => "expected \\ after \x60a', \x60c' or \x60i'".toList
  | .incomplete => "incomplete command".toList
  | .repeatedEscape => "recursive escaping after \\c not allowed".toList
  | .missingFile => "missing filename in r/R/w/W commands".toList
  | .newerVersion => "expected newer version of sed".toList
  | .unknownGroup number =>
      "invalid reference \\".toList ++ decimalText number ++ " on \x60s' command's RHS".toList
  | .emptyWithFlags => "cannot specify modifiers on empty regexp".toList
  | .noExpression => "no previous regular expression".toList
  | .sandboxed => "e/r/w commands disabled in sandbox mode".toList
  | .pattern defect => defect.message.toList

structure Dialect where
  /-- Expressions are written in the extended notation. -/
  extended : Bool
  /-- Files and scripts cannot be used. -/
  sandboxed : Bool
  /-- Only what is common to all such editors is known. -/
  strict : Bool
deriving DecidableEq, Repr

/-- Where a piece of a program comes from. -/
inductive Origin where
  /-- An argument, by its number among those that write the program. -/
  | argument (number : Nat)
  | file (name : ByteText)
deriving DecidableEq, Repr

/-- Why a text writes no program. -/
inductive ProgramFault where
  /-- A problem behind `position` characters of an argument, or in a line of a file. -/
  | located (origin : Origin) (position line : Nat) (problem : ProgramProblem)
  | unknownLabel (label : ByteText)
  /-- The name of a class stands in one pair of brackets only. -/
  | looseClass
deriving DecidableEq, Repr

namespace ProgramFault

def message : ProgramFault → ByteText
  | .located (.argument number) position _ problem =>
      "-e expression #".toList ++ decimalText number ++ ", char ".toList ++ decimalText position ++
        ": ".toList ++ problem.message
  | .located (.file name) _ line problem =>
      "file ".toList ++ name ++ " line ".toList ++ decimalText line ++ ": ".toList ++ problem.message
  | .unknownLabel label => "can't find label for jump to \x60".toList ++ label ++ ['\'']
  | .looseClass => "character class syntax is [[:space:]], not [:space:]".toList

/-- The fault only shows when the whole program is read. -/
def isFinal : ProgramFault → Bool
  | .located _ _ _ .openBrace | .located _ _ _ .incomplete | .unknownLabel _ => true
  | _ => false

def code : ProgramFault → Nat
  | .located _ _ _ _ => 1
  | .unknownLabel _ | .looseClass => 4

end ProgramFault

end TypeStub.Tool.LineEditor
