import TypeStub.Tool.Shell.Expansion

/-!
Contract: redirections.

Owns:
- `openFor`, which opens a file for a script, with the complaint if it cannot;
- `withRedirects`, which runs something with its redirections.

The words of all redirections are expanded before the first of them is done.
-/

namespace TypeStub.Tool.Shell

/-! ## Opening -/

/-- The complaint about a file that cannot be opened. -/
def notOpened (creates : Bool) (name : ByteText) (cause : OsCause) : ByteText :=
  let reason := match cause with
    | .notFound | .notDirectory => if creates then "Directory nonexistent" else "No such file"
    | _ => cause.reason
  "cannot ".toList ++ (if creates then "create " else "open ").toList ++ name ++ ": ".toList ++
    reason.toList

/-- Open a file; the answer is the number of the open file or a complaint. -/
def openFor (style : OpenStyle) (name : ByteText) : Running (Except ByteText Nat) := do
  return (← openPath style name).mapError (notOpened style.creates name)

/-- Open a file to write what was not there, or what is no file. -/
def openKeeping (name : ByteText) : Running (Except ByteText Nat) := do
  let task ← task
  match task.world.status task.process false name with
  | .error _ => openFor .making name
  | .ok (.file _) | .ok (.program _) => return .error (notOpened true name .alreadyExists)
  | .ok _ => openFor ⟨false, true, false, false, false, false⟩ name

/-- Open a file in one of the ways that scripts have. -/
def openIn (mode : OpenMode) (name : ByteText) : Running (Except ByteText Nat) := do
  match mode with
  | .read => openFor .reading name
  | .write => if (← get).has 'C' then openKeeping name else openFor .writing name
  | .overwrite => openFor .writing name
  | .append => openFor .appending name
  | .readWrite => openFor .updating name

/-- Open a file under a number that no redirection can name. -/
def openApart (name : ByteText) : Running (Except ByteText Nat) := do
  match ← openFor .reading name with
  | .error problem => return .error problem
  | .ok opened =>
      let descriptor := freeDescriptor (greatestDescriptor + 1) (← descriptors)
      putDescriptor descriptor opened
      return .ok descriptor

/-! ## Redirecting -/

/-- A redirection whose word is expanded. -/
inductive Target where
  | file (descriptor : Nat) (mode : OpenMode) (name : ByteText)
  | copy (descriptor source : Nat)
  | closed (descriptor : Nat)
  | document (descriptor : Nat) (text : ByteText)

def target (runner : Runner) : Redirect → Running Target
  | .file descriptor mode name => return .file descriptor mode (← expandText runner name)
  | .document descriptor text => return .document descriptor (← expandText runner text)
  | .copy descriptor source => do
      match ← expandText runner source with
      | ['-'] => return .closed descriptor
      | [digit] =>
          if digit.isDigit then return .copy descriptor (decimalValue [digit])
          else abort "Syntax error: Bad fd number".toList
      | _ => abort "Syntax error: Bad fd number".toList

/-- Do a redirection; the answer is a complaint about that. -/
def Target.apply : Target → Running (Option ByteText)
  | .file descriptor mode name => do
      match ← openIn mode name with
      | .error problem => return some problem
      | .ok opened =>
          putDescriptor descriptor opened
          return none
  | .document descriptor text => do
      let pipe ← addPipe (.filled (toBytes text))
      putDescriptor descriptor (← addOpened (readingEnd pipe))
      return none
  | .closed descriptor => do
      close descriptor
      return none
  | .copy descriptor source => do
      match (← descriptors).lookup source with
      | some opened =>
          putDescriptor descriptor opened
          return none
      | none => return some (decimalText source ++ ": Bad file descriptor".toList)

/-- Do redirections up to one that cannot be done; whether all are done. -/
def applyAll : List Target → Running Bool
  | [] => return true
  | target :: rest => do
      match ← target.apply with
      | none => applyAll rest
      | some problem =>
          complain problem
          return false

def changed : Redirect → Nat
  | .file descriptor _ _ | .copy descriptor _ | .document descriptor _ => descriptor

/-- Some descriptors stand for what they stood for before. -/
def restored (before : List (Nat × Nat)) (numbers : List Nat) (now : List (Nat × Nat)) :
    List (Nat × Nat) :=
  numbers.foldl (fun now number =>
    match before.lookup number with
    | some opened => putKey number opened now
    | none => dropKey number now) now

/-- Run with redirections, which end with it unless they are kept; nothing if they cannot be
done. -/
def withRedirects {α : Type} (runner : Runner) (keeps : Bool) (redirects : List Redirect)
    (body : Running α) : Running (Option α) := do
  let saved ← descriptors
  let back : Running Unit := do
    if !keeps then putDescriptors (restored saved (redirects.map changed) (← descriptors))
  let whole : Running (Option α) := do
    let targets ← redirects.mapM (target runner)
    if ← applyAll targets then return some (← body) else return none
  let answer ← tryCatch whole fun interruption => do
    back
    throw interruption
  back
  return answer

end TypeStub.Tool.Shell
