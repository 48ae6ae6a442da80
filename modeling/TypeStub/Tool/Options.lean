import TypeStub.Tool.System.Output

/-!
Contract: the options among the arguments of a program.

Owns:
- `OptionTable`, the options that a program knows, by letters and by names;
- `OptionTable.scan`, which takes them out of the arguments up to one that means nothing;
- `givenTo`, which ends the program there.

Letters can stand together behind one dash, and a value can follow its letter at once. A
name follows two dashes, can be cut short as long as it is clear which one is meant, and has
its value behind an equals sign or in the next argument.
-/

namespace TypeStub.Tool

/-- The options that a program knows. -/
structure OptionTable where
  flags : List Char
  valued : List Char
  /-- The names, each with the letter that it stands for. A letter that is in neither list
  can only be written by its name. -/
  names : List (String × Char)
  valuedNames : List Char
  /-- Options may stand behind operands. -/
  permutes : Bool
  /-- The letters with a value that can be left out and else follows at once. -/
  optional : List Char := []

/-- The options and operands of a run. -/
structure Given where
  /-- The letters in order, each with its value or nothing. -/
  options : List (Char × ByteText)
  operands : List ByteText

namespace Given

def has (given : Given) (letter : Char) : Bool :=
  given.options.any (·.1 == letter)

def value? (given : Given) (letter : Char) : Option ByteText :=
  (given.options.reverse.find? (·.1 == letter)).map (·.2)

def addOptions (options : List (Char × ByteText)) (given : Given) : Given :=
  { given with options := options ++ given.options }

def addOperand (operand : ByteText) (given : Given) : Given :=
  { given with operands := operand :: given.operands }

end Given

namespace OptionTable

inductive LetterRest where
  | nothing
  | value (letter : Char)
  | problem (problem : ByteText)

/-- The options that letters behind a dash write, with a value that follows its letter at
once. -/
def letters (table : OptionTable) : List Char → List (Char × ByteText) × LetterRest
  | [] => ([], .nothing)
  | letter :: rest =>
      if table.flags.contains letter then
        let (options, missing) := letters table rest
        ((letter, []) :: options, missing)
      else if table.optional.contains letter then ([(letter, rest)], .nothing)
      else if table.valued.contains letter then
        if rest.isEmpty then ([], .value letter) else ([(letter, rest)], .nothing)
      else ([], .problem ("invalid option -- ".toList ++ quoted [letter]))

/-- The letter that the name in an argument stands for, which may be cut short. -/
def letterOf (table : OptionTable) (argument name : ByteText) : Except ByteText Char :=
  match table.names.find? fun known => known.1.toList = name with
  | some (_, letter) => .ok letter
  | none =>
      let fitting := table.names.filter fun known => name.isPrefixOf known.1.toList
      match (fitting.map (·.2)).eraseDups with
      | [] => .error ("unrecognized option ".toList ++ quoted argument)
      | [letter] => .ok letter
      | _ =>
          .error ("option '--".toList ++ name ++ "' is ambiguous; possibilities:".toList ++
            fitting.flatMap fun known => (" '--" ++ known.1 ++ "'").toList)

/-- The full form of the name, for complaints. -/
def fullName (table : OptionTable) (name : ByteText) : ByteText :=
  let named (test : ByteText → Bool) : Option (String × Char) :=
    table.names.find? fun known => test known.1.toList
  match (named (· == name)).or (named name.isPrefixOf) with
  | some (full, _) => quoted ("--".toList ++ full.toList)
  | none => quoted ("--".toList ++ name)

def takesValue (table : OptionTable) (letter : Char) : Bool :=
  table.valued.contains letter || table.valuedNames.contains letter

/-- The table for a program that was told to follow the rules by its environment: behind the
first operand there are no options. -/
def strict (table : OptionTable) (isStrict : Bool) : OptionTable :=
  if isStrict then { table with permutes := false } else table

/-- What a name and its value behind two dashes ask for: the option with its value, or that
its value is the next argument. -/
def long (table : OptionTable) (argument : ByteText) :
    Except ByteText ((Char × ByteText) ⊕ Char) := do
  let name := (argument.drop 2).takeWhile (· ≠ '=')
  let letter ← table.letterOf argument name
  match (argument.drop 2).drop name.length with
  | [] => return if table.takesValue letter then .inr letter else .inl (letter, [])
  | _ :: value =>
      if table.takesValue letter || table.optional.contains letter then return .inl (letter, value)
      else
        throw ("option ".toList ++ table.fullName name ++ " doesn't allow an argument".toList)

/-- Read the arguments of a program up to one that means nothing; what is wrong with it comes
with the options before it. -/
def scan (table : OptionTable) : List ByteText → Given × Option ByteText
  | [] => (⟨[], []⟩, none)
  | argument :: rest =>
      let later (options : List (Char × ByteText)) (scanned : Given × Option ByteText) :
          Given × Option ByteText :=
        (scanned.1.addOptions options, scanned.2)
      match argument with
      | ['-', '-'] => (⟨[], rest⟩, none)
      | '-' :: '-' :: name =>
          match table.long argument with
          | .error problem => (⟨[], []⟩, some problem)
          | .ok (.inl option) => later [option] (scan table rest)
          | .ok (.inr letter) =>
              match rest with
              | [] =>
                  (⟨[], []⟩, some ("option ".toList ++ table.fullName name ++
                    " requires an argument".toList))
              | value :: rest => later [(letter, value)] (scan table rest)
      | '-' :: first :: more =>
          match table.letters (first :: more) with
          | (options, .problem problem) => (⟨options, []⟩, some problem)
          | (options, .nothing) => later options (scan table rest)
          | (options, .value letter) =>
              match rest with
              | [] =>
                  (⟨options, []⟩,
                    some ("option requires an argument -- ".toList ++ quoted [letter]))
              | value :: rest => later (options ++ [(letter, value)]) (scan table rest)
      | operand =>
          if table.permutes then
            let (given, problem) := scan table rest
            (given.addOperand operand, problem)
          else (⟨[], operand :: rest⟩, none)

end OptionTable

/-- The environment asks for programs that follow the rules. -/
def isStrict : Job Bool := do
  return ((← get).process.environment.lookup "POSIXLY_CORRECT".toList).isSome

/-- The options and operands among the arguments of a program. -/
def givenTo (table : OptionTable) (name : ByteText) (arguments : List ByteText) : Job Given := do
  match (table.strict (← isStrict)).scan arguments with
  | (given, none) => return given
  | (_, some problem) =>
      pointToHelp name problem
      throw (.exited 1)

end TypeStub.Tool
