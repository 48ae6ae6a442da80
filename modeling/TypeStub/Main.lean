import TypeStub.CommandLine
import TypeStub.Tool.Toolbox

/-!
Contract: the command that writes the stub of a module.

Owns: `main`, which reads the files that a request needs, reports, and writes the stub.

Does not own: anything about stubs. What the run reads is fixed before the stub is made, and
nothing is written before it is whole. A formatter of the toolbox finds no files.
-/

namespace TypeStub.Command

def errorNumber? : IO.Error → Option UInt32
  | .alreadyExists _ code _ | .otherError code _ | .resourceBusy code _
  | .resourceVanished code _ | .unsupportedOperation code _ | .hardwareFault code _
  | .unsatisfiedConstraints code _ | .illegalOperation code _ | .protocolError code _
  | .timeExpired code _ | .interrupted _ code _ | .noFileOrDirectory _ code _
  | .invalidArgument _ code _ | .permissionDenied _ code _ | .resourceExhausted _ code _
  | .inappropriateType _ code _ | .noSuchThing _ code _ => some code
  | .unexpectedEof | .userError _ => none

/-- A system's number without its sign, which some requests turn around. -/
def unsigned (code : UInt32) : UInt32 :=
  if code < 0x80000000 then code else 0 - code

def causeOf (error : IO.Error) : OsCause :=
  match (errorNumber? error).map unsigned with
  | some 2 => .notFound
  | some 13 => .permissionDenied
  | some 17 => .alreadyExists
  | some 20 => .notDirectory
  | some 21 => .isDirectory
  | some 32 => .brokenPipe
  | some 36 => .nameTooLong
  | _ => .other (toString error)

/-- The answer to a request, or why it is refused. -/
def attempt {α : Type} (request : IO α) : IO (Except OsCause α) := do
  try return .ok (← request)
  catch error => return .error (causeOf error)

/-- The bytes of a file, or why they cannot be read. -/
def look (path : String) : IO (Except OsCause ByteArray) := do
  if path.contains '\x00' then return .error .nameWithNul
  attempt (IO.FS.readBinFile path)

/-- There is something of the path, as far as the attempt to read it shows. -/
def isThere : Except OsCause ByteArray → Bool
  | .error .notFound | .error .notDirectory | .error .nameTooLong | .error .nameWithNul => false
  | _ => true

/-- The files of the given paths, as they are now. -/
def survey (paths : List String) : IO Files := do
  let seen ← paths.mapM fun path => return (path, ← look path)
  let found (path : String) := (seen.lookup path).getD (.error .notFound)
  return { read := found, holds := fun path => isThere (found path) }

/-- Make a directory; one that is already there will do. -/
def ensureDirectory (path : String) : IO (Except OsCause Unit) := do
  match ← attempt (IO.FS.createDir path) with
  | .ok () => return .ok ()
  | .error cause =>
      match ← look path with
      | .error .isDirectory => return .ok ()
      | _ => return .error cause

/-- Make the first of the directories, and those after it, which it stands in, as far as
they are missing. -/
def ensureDirectories : List String → IO (Except OsCause Unit)
  | [] => return .ok ()
  | path :: above => do
      match ← ensureDirectory path with
      | .error .notFound =>
          match ← ensureDirectories above with
          | .error cause => return .error cause
          | .ok () => ensureDirectory path
      | answer => return answer

/-- Write a text to a file, with the directories that it stands in. -/
def save (path text : String) : IO (Except Fault Unit) := do
  let directory := (Path.parent? path).getD ""
  match ← ensureDirectories (Path.ancestors directory) with
  | .error cause => return .error (.io directory cause)
  | .ok () =>
      match ← attempt (IO.FS.writeBinFile path text.toUTF8) with
      | .error cause => return .error (.io path cause)
      | .ok () => return .ok ()

def report (notice : Notice) : IO Unit :=
  let fields := notice.fields.map fun (name, value) => " " ++ name ++ "=" ++ value
  IO.eprintln ("WARN " ++ notice.message ++ String.join fields)

/-- Put the text of a stub where the request wants it. -/
def deliver (request : Request) (text : String) : IO (Except Fault Unit) := do
  if request.isToStdout then
    IO.print text
    return .ok ()
  else save request.out text

/-- Carry out a request; the answer is the code to end with. -/
def perform (request : Request) : IO UInt32 := do
  let files ← survey request.readPaths
  (request.notices files).forM report
  let result ← match (request.stub files Tool.toolbox ∅).1 with
    | .error fault => pure (Except.error fault)
    | .ok stub => do
        unless stub.warnings.isEmpty do
          IO.eprintln (toString stub.warnings.length ++
            " member(s) skipped, see warnings above")
        deliver request stub.text
  match result with
  | .ok () => return 0
  | .error fault => do
      IO.eprintln ("error: " ++ fault.message)
      return 1

/-- How the command is called. -/
def usage : String :=
  "Usage: typestub [--black] [--schema-dir DIR] [--config FILE] MODULE OUT"

end TypeStub.Command

open TypeStub in
/-- Write the stub of a module. -/
def main (arguments : List String) : IO UInt32 := do
  match Request.ofArguments? arguments with
  | none => do
      IO.eprintln Command.usage
      return UInt32.ofNat usageExitCode
  | some request => Command.perform request
