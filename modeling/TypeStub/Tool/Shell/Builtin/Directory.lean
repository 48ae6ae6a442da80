import TypeStub.Tool.Shell.Builtin.Variables

/-!
Contract: the commands for the current directory and for the rights of new files.

Owns: `changeDirectory`, `currentDirectory` and `changeMask`.

The path of the current directory is kept as the script has reached it, so that two dots take
away the last step also behind a link.
-/

namespace TypeStub.Tool.Shell

/-! ## The current directory -/

/-- The path that one reaches from a directory by another path. -/
def reachedPath (current path : ByteText) : ByteText :=
  let isAbsolute : Bool := path.head? == some '/'
  let start := if isAbsolute then [] else pathSteps current
  let isDouble (path : ByteText) : Bool :=
    "//".toList.isPrefixOf path && path[2]? != some '/'
  let steps := (pathSteps path).foldl (fun steps step =>
    if step = ['.'] then steps
    else if step = ['.', '.'] then steps.dropLast
    else steps ++ [step]) start
  (if isDouble (if isAbsolute then path else current) then "//".toList else ['/']) ++
    ['/'].intercalate steps
where
  pathSteps (path : ByteText) : List ByteText :=
    (path.splitOn '/').filter (!·.isEmpty)

/-- Put a variable that programs see as well. -/
def publish (name value : ByteText) : Running Unit := do
  assign name value
  modify fun state =>
    { state with
      bindings := state.bindings.map fun (other, held) =>
        (other, if other = name then { held with exported := true } else held) }

/-- Let a directory with a path be the current one. -/
def enter (path : ByteText) (directory : Nat) : Running Unit := do
  let before := (← get).directory
  editProcess fun process => { process with directory }
  publish "OLDPWD".toList before
  modify fun state => { state with directory := path }
  publish "PWD".toList path

/-- Change to a directory; whether there is one. With `physical` links are followed before two
dots take away a step. -/
def tryEnter (physical : Bool) (path : ByteText) : Running Bool := do
  let task ← task
  let state ← get
  let reached := if physical then path else reachedPath state.directory path
  match task.world.findDirectory task.process reached with
  | .error _ => return false
  | .ok directory =>
      enter (if physical then task.world.pathOf directory else reached) directory
      return true

/-- The path begins with a step that says where it begins. -/
def saysStart (path : ByteText) : Bool :=
  match (path.splitOn '/').head? with
  | some ['.'] | some ['.', '.'] => true
  | _ => path.head? == some '/'

/-- Change to the first directory of that name on some paths; whether there is one, and
whether its path is to be shown. -/
def enterFirst (physical : Bool) (name : ByteText) : List ByteText → Running (Option Bool)
  | [] => return none
  | directory :: rest => do
      let path := if directory.isEmpty then name else directory ++ '/' :: name
      let task ← task
      match task.world.findDirectory task.process path with
      | .error _ => enterFirst physical name rest
      | .ok _ =>
          if ← tryEnter physical path then return some !directory.isEmpty
          else abort ("can't cd to ".toList ++ name)

/-- Whether the last of some options is the one for physical paths. -/
def isPhysical (read : LettersRead) : Bool :=
  (read.letters.getLast?.map (·.1)) == some 'P'

def changeDirectory : Builtin := fun _ _ arguments => do
  let read ← letters "LP" arguments
  let physical := isPhysical read
  let state ← get
  let (name, isBack) := match read.rest with
    | [] => ((state.value? "HOME".toList).getD [], false)
    | ['-'] :: _ => ((state.value? "OLDPWD".toList).getD [], true)
    | name :: _ => (name, false)
  let (found, name) ←
    if saysStart name then pure (none, name)
    else
      let name := if name.isEmpty then ['.'] else name
      let list := ((state.value? "CDPATH".toList).map fun list => list.splitOn ':').getD []
      pure (← enterFirst physical name list, name)
  let shows ← match found with
    | some shows => pure (isBack || shows)
    | none =>
        if ← tryEnter physical name then pure isBack
        else abort ("can't cd to ".toList ++ name)
  if shows then putText ((← get).directory ++ ['\n']) else return 0

def currentDirectory : Builtin := fun _ _ arguments => do
  let read ← letters "LP" arguments
  let task ← task
  let state ← get
  let path :=
    if isPhysical read then task.world.pathOf task.process.directory else state.directory
  putText (path ++ ['\n'])

/-! ## Rights -/

/-- The number of a digit in octal places. -/
def octalMask? (text : ByteText) : Option Nat :=
  if text.all fun c => '0' ≤ c && c ≤ '7' then
    some (text.foldl (fun value c => value * 8 + (c.toNat - '0'.toNat)) 0)
  else none

/-- The rights of one kind of user in letters. -/
def rightsText (rights : Nat) : ByteText :=
  (if rights / 4 % 2 = 1 then ['r'] else []) ++ (if rights / 2 % 2 = 1 then ['w'] else []) ++
    (if rights % 2 = 1 then ['x'] else [])

/-- Show or put the rights that new files do not have. -/
def changeMask : Builtin := fun _ _ arguments => do
  let read ← letters "S" arguments
  let symbolic := !read.letters.isEmpty
  let mask := (← task).process.mask
  let all := 7 * 73
  match read.rest with
  | [] =>
      if symbolic then
        let granted := all - (all &&& mask)
        let shares := [('u', granted / 64 % 8), ('g', granted / 8 % 8), ('o', granted % 8)]
        let texts := shares.map fun (user, rights) => user :: '=' :: rightsText rights
        putText ([','].intercalate texts ++ ['\n'])
      else
        let digits := Nat.toDigits 8 mask
        putText (List.replicate (4 - digits.length) '0' ++ digits ++ ['\n'])
  | text :: _ =>
      match octalMask? text with
      | some mask =>
          editProcess fun process => { process with mask := mask &&& all }
          return 0
      | none => abort (illegalNumber text)

end TypeStub.Tool.Shell
