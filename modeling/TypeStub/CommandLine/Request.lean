/-!
Contract: what a user asks for on the command line.

Owns:
- `Request`, one run in its user's words;
- the reading of a request from the arguments of a command.
-/

namespace TypeStub

/-- One run in its user's words. -/
structure Request where
  module : String
  /-- The file to write the stub to; a single dash stands for the standard output. -/
  out : String
  /-- The stub passes through the formatter. -/
  formatted : Bool
  dumps : String
  config : Option String
deriving DecidableEq, Repr

namespace Request

/-- The arguments as far as they are read. -/
structure Given where
  positionals : List String
  formatted : Bool
  dumps : Option String
  config : Option String
deriving DecidableEq, Repr

inductive ValueOption where
  | dumps
  | config
deriving DecidableEq, Repr

def ValueOption.ofName? (name : String) : Option ValueOption :=
  if name = "schema-dir" then some .dumps
  else if name = "config" then some .config
  else none

namespace Given

def nothing : Given :=
  ⟨[], false, none, none⟩

/-- Read a further positional argument. There are two places for them. -/
def addPositional (given : Given) (argument : String) : Option Given :=
  if given.positionals.length < 2 then
    some { given with positionals := given.positionals ++ [argument] }
  else none

/-- Read the option for the formatter, which is given once. -/
def addFormatted (given : Given) : Option Given :=
  if given.formatted then none else some { given with formatted := true }

/-- Read an option with its value. Each is given once, and no path is empty. -/
def addValue (given : Given) (key : ValueOption) (value : String) : Option Given :=
  if value.isEmpty then none
  else
    match key with
    | .dumps => if given.dumps.isSome then none else some { given with dumps := some value }
    | .config => if given.config.isSome then none else some { given with config := some value }

end Given

def isDashed (argument : String) : Bool :=
  argument.startsWith "-" && argument != "-"

/-- The name of a long option, and the value behind its equals sign. -/
def longOption (argument : String) : String × Option String :=
  let text := argument.toList.drop 2
  let name := String.ofList (text.takeWhile (· ≠ '='))
  match text.dropWhile (· ≠ '=') with
  | [] => (name, none)
  | _ :: value => (name, some (String.ofList value))

/-- Read arguments. Options may stand anywhere before a double dash, behind which all
arguments are positional. -/
def readArguments (given : Given) : List String → Option Given
  | [] => some given
  | argument :: rest =>
      if argument = "--" then rest.foldlM Given.addPositional given
      else if !isDashed argument then
        (given.addPositional argument).bind fun given => readArguments given rest
      else if !argument.startsWith "--" then none
      else
        match longOption argument with
        | ("black", none) => given.addFormatted.bind fun given => readArguments given rest
        | (name, some value) =>
            ((ValueOption.ofName? name).bind fun key => given.addValue key value).bind
              fun given => readArguments given rest
        | (name, none) =>
            match rest with
            | [] => none
            | value :: rest =>
                if isDashed value then none
                else
                  ((ValueOption.ofName? name).bind fun key => given.addValue key value).bind
                    fun given => readArguments given rest

def ofGiven (given : Given) : Option Request :=
  match given.positionals with
  | [module, out] =>
      if out.isEmpty then none
      else some ⟨module, out, given.formatted, given.dumps.getD ".", given.config⟩
  | _ => none

/-- The request that the arguments of a command make. -/
def ofArguments? (arguments : List String) : Option Request :=
  (readArguments .nothing arguments).bind ofGiven

end Request

end TypeStub
