import TypeStub.Tool.Shell.Machine

/-!
Contract: the commands for the names of commands.

Owns:
- aliases, which are listed by the rows of the table in which they are kept;
- `NameKind`, what a name stands for, and the commands that tell about it.
-/

namespace TypeStub.Tool.Shell

/-! ## Aliases -/

/-- The row of the table of aliases that holds a name. -/
def aliasRow (name : ByteText) : Nat :=
  let first := (name.head?.map Char.toNat).getD 0
  (first * 16 + total (name.map Char.toNat)) % 39

def aliasText (name value : ByteText) : ByteText :=
  name ++ '=' :: requoted value ++ ['\n']

/-- The name and the text of an alias that an argument sets. -/
def aliasSetting? (argument : ByteText) : Option (ByteText × ByteText) :=
  let name := argument.take 1 ++ (argument.tail.takeWhile (· ≠ '='))
  match argument.drop name.length with
  | _ :: value => some (name, value)
  | [] => none

def setAliases : Builtin := fun _ _ arguments => do
  if arguments.isEmpty then
    let state ← get
    let aliases := state.aliases.mergeSort fun a b => aliasRow a.1 ≤ aliasRow b.1
    putText (aliases.flatMap fun (name, value) => aliasText name value)
  else
    let step (code : Nat) (argument : ByteText) : Running Nat := do
      match aliasSetting? argument with
      | some (name, value) =>
          modify fun state => { state with aliases := putKey name value state.aliases }
          return code
      | none =>
          match (← get).aliases.lookup argument with
          | some value => return max code (← putText (aliasText argument value))
          | none =>
              say ("alias: ".toList ++ argument ++ " not found".toList)
              return 1
    arguments.foldlM step 0

def dropAliases : Builtin := fun _ _ arguments => do
  let read ← letters "a" arguments
  if !read.letters.isEmpty then
    modify fun state => { state with aliases := [] }
    return 0
  else
    let step (code : Nat) (name : ByteText) : Running Nat := do
      if ((← get).aliases.lookup name).isSome then
        modify fun state => { state with aliases := dropKey name state.aliases }
        return code
      else
        say ("unalias: ".toList ++ name ++ " not found".toList)
        return 1
    read.rest.foldlM step 0

/-! ## Kinds of names -/

/-- What a name stands for where a command begins. -/
inductive NameKind where
  | keyword
  | alias (text : ByteText)
  | special
  | function
  | builtin
  | program (path : ByteText)

/-- What a name stands for, if for anything, where `isBuiltin` tells the commands of scripts
and programs are in a list of directories. -/
def nameKind? (isBuiltin : ByteText → Bool) (list : Option ByteText) (name : ByteText) :
    Running (Option NameKind) := do
  let state ← get
  if keywords.any fun reserved => reserved.spelling.toList == name then return some .keyword
  else
    match state.aliases.lookup name with
    | some text => return some (.alias text)
    | none =>
        if isSpecial name then return some .special
        else if (state.functions.lookup name).isSome then return some .function
        else if isBuiltin name then return some .builtin
        else if isPath name then
          let task ← task
          return if (task.world.status task.process false name).isOk then some (.program name)
            else none
        else
          let found ← searchProgram list name
          return found.toOption.map fun found => .program found.path

/-- The name with what it stands for, in words. -/
def NameKind.told (name : ByteText) : NameKind → ByteText
  | .keyword => name ++ " is a shell keyword".toList
  | .alias text => name ++ " is an alias for ".toList ++ text
  | .special => name ++ " is a special shell builtin".toList
  | .function => name ++ " is a shell function".toList
  | .builtin => name ++ " is a shell builtin".toList
  | .program path => name ++ " is ".toList ++ path

/-- What is written to reach what a name stands for. -/
def NameKind.reached (name : ByteText) : NameKind → ByteText
  | .program path => path
  | .alias text => "alias ".toList ++ name ++ '=' :: requoted text
  | _ => name

def tell (isBuiltin : ByteText → Bool) (list : Option ByteText) (inWords : Bool)
    (name : ByteText) : Running Nat := do
  match ← nameKind? isBuiltin list name with
  | some kind => putText ((if inWords then kind.told name else kind.reached name) ++ ['\n'])
  | none =>
      if inWords then
        let _ ← putText (name ++ ": not found\n".toList)
      return 127

def type (isBuiltin : ByteText → Bool) : Builtin := fun _ _ names => do
  let list ← searchList
  names.foldlM (fun code name => do return max code (← tell isBuiltin list true name)) 0

/-- The directories of programs, the command and its arguments behind the options in front of
them; nothing if those ask for something else. -/
def commandBehind? (list : Option ByteText) : List ByteText → Option (Option ByteText × List ByteText)
  | ['-', '-'] :: fields => some (list, fields)
  | ('-' :: letter :: more) :: fields =>
      if (letter :: more).all (· == 'p') then commandBehind? (some usualPath) fields else none
  | fields => some (list, fields)

/-- Run the command in the arguments, or tell about it. -/
def command (isBuiltin : ByteText → Bool) : Builtin := fun machine tested arguments => do
  let list ← searchList
  match commandBehind? list arguments with
  | some (list, fields) => machine.runFields false tested list fields
  | none =>
      let outer := (← get).command
      modify fun state => { state with command := "command".toList }
      let read ← letters "pvV" arguments
      modify fun state => { state with command := outer }
      let has (letter : Char) : Bool := read.letters.any fun (other, _) => other == letter
      match read.rest with
      | [] => return 0
      | name :: _ =>
          tell isBuiltin (if has 'p' then some usualPath else list) (has 'V') name

end TypeStub.Tool.Shell
