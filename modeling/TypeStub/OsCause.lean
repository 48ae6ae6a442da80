/-!
Contract: why the operating system refuses a request.

Owns: `OsCause`, with the wording and the number of each cause.
-/

namespace TypeStub

/-- A cause for which a request on files or processes fails. -/
inductive OsCause where
  | notFound
  /-- The program may not be run or the file not be used. -/
  | permissionDenied
  | alreadyExists
  | notDirectory
  | isDirectory
  | brokenPipe
  | badDescriptor
  | noSpace
  | noDevice
  | tooManyLinks
  | argumentTooLong
  | nameTooLong
  | nameWithNul
  | notText
  /-- Any other cause, by its wording. -/
  | other (message : String)
deriving DecidableEq, Repr

namespace OsCause

/-- The wording of a cause without its number. -/
def reason : OsCause → String
  | .notFound => "No such file or directory"
  | .permissionDenied => "Permission denied"
  | .alreadyExists => "File exists"
  | .notDirectory => "Not a directory"
  | .isDirectory => "Is a directory"
  | .brokenPipe => "Broken pipe"
  | .badDescriptor => "Bad file descriptor"
  | .noSpace => "No space left on device"
  | .noDevice => "No such device or address"
  | .tooManyLinks => "Too many levels of symbolic links"
  | .argumentTooLong => "Argument list too long"
  | .nameTooLong => "File name too long"
  | .nameWithNul => "file name contained an unexpected NUL byte"
  | .notText => "stream did not contain valid UTF-8"
  | .other message => message

/-- The number of a cause, if the system gave it. -/
def number? : OsCause → Option Nat
  | .notFound => some 2
  | .argumentTooLong => some 7
  | .permissionDenied => some 13
  | .alreadyExists => some 17
  | .notDirectory => some 20
  | .isDirectory => some 21
  | .brokenPipe => some 32
  | .badDescriptor => some 9
  | .noSpace => some 28
  | .noDevice => some 6
  | .tooManyLinks => some 40
  | .nameTooLong => some 36
  | .nameWithNul => none
  | .notText => none
  | .other _ => none

/-- The wording of a cause, with its number if it has one. -/
def message (cause : OsCause) : String :=
  match cause.number? with
  | none => cause.reason
  | some number => cause.reason ++ " (os error " ++ toString number ++ ")"

end OsCause

end TypeStub
