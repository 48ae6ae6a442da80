import TypeStub.Tool.Shell.Redirection
import TypeStub.Tool.Shell.Print
import TypeStub.Tool.Shell.Search

/-!
Contract: what the commands that scripts have of their own are built from.

Owns:
- `Machine`, what commands need to run others, and `Builtin`;
- `isSpecial`, which says whose failure ends a script;
- the options and the output of commands.
-/

namespace TypeStub.Tool.Shell

/-- The ways to run commands; `tested` says that their failure does not matter. -/
structure Machine where
  programs : Programs
  run : (tested : Bool) → Command → Running Nat
  runText : (tested : Bool) → (text : ByteText) → Running Nat
  /-- Run the lines that are read through a descriptor in the script itself. -/
  runLines : (tested : Bool) → (descriptor : Nat) → Running Nat
  /-- Run the command that fields name, with the directories where programs are; without
  `functions` it is no function of the script. -/
  runFields : (functions tested : Bool) → (list : Option ByteText) → (fields : List ByteText) →
    Running Nat

abbrev Builtin :=
  (machine : Machine) → (tested : Bool) → (arguments : List ByteText) → Running Nat

/-- The failure of the command ends a script. -/
def isSpecial (name : ByteText) : Bool :=
  [".", ":", "break", "continue", "eval", "exec", "exit", "export", "local", "readonly", "return",
   "set", "shift", "times", "trap", "unset"].contains (String.ofList name)

/-- A text between single quotes, as a script can read it. -/
def requoted (text : ByteText) : ByteText :=
  quoted (text.flatMap fun c => if c = '\'' then "'\"'\"'".toList else [c])

/-! ## Options -/

/-- The complaint about an option that is not known. -/
def illegalOption (letter : Char) : ByteText :=
  "Illegal option -".toList ++ [letter]

/-- The options in front of arguments. -/
structure LettersRead where
  letters : List (Char × ByteText)
  rest : List ByteText

/-- Read the letters of one argument, where a colon in `known` says that the letter before it
takes a text. -/
def readLetters (known : List Char) (rest : List ByteText) :
    ByteText → Except ByteText LettersRead
  | [] => .ok ⟨[], rest⟩
  | letter :: letters =>
      match (known.dropWhile (· ≠ letter)) with
      | [] => .error (illegalOption letter)
      | _ :: ':' :: _ =>
          match letters, rest with
          | [], [] => .error ("No arg for -".toList ++ letter :: " option".toList)
          | [], text :: rest => .ok ⟨[(letter, text)], rest⟩
          | text, rest => .ok ⟨[(letter, text)], rest⟩
      | _ => do
          let read ← readLetters known rest letters
          return { read with letters := (letter, []) :: read.letters }

/-- Read the options in front of at most so many arguments. -/
def lettersFrom (known : List Char) : (steps : Nat) → List ByteText → Except ByteText LettersRead
  | 0, arguments => .ok ⟨[], arguments⟩
  | steps + 1, arguments =>
      match arguments with
      | ['-', '-'] :: rest => .ok ⟨[], rest⟩
      | ('-' :: letter :: letters) :: rest => do
          let read ← readLetters known rest (letter :: letters)
          let behind ← lettersFrom known steps read.rest
          return ⟨read.letters ++ behind.letters, behind.rest⟩
      | _ => .ok ⟨[], arguments⟩

/-- The options in front of the arguments of a command. -/
def letters (known : String) (arguments : List ByteText) : Running LettersRead :=
  match lettersFrom known.toList arguments.length arguments with
  | .ok read => return read
  | .error problem => abort problem

/-! ## Output -/

/-- Write the output of a command and its complaints. -/
def putPrinted (printed : Printed) : Running Nat := do
  printed.complaints.forM complain
  if printed.out.isEmpty then return printed.code
  else
    match ← write 1 printed.out with
    | .ok () => return printed.code
    | .error _ =>
        complain ((← get).command ++ ": I/O error".toList)
        return 1

def putText (text : ByteText) : Running Nat :=
  putPrinted ⟨text, [], 0⟩

/-- The command whose output depends on nothing but its arguments. -/
def printing (print : List ByteText → Printed) : Builtin := fun _ _ arguments =>
  putPrinted (print arguments)

def idle (code : Nat) : Builtin := fun _ _ _ =>
  return code

end TypeStub.Tool.Shell
