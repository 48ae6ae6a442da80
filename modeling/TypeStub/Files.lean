import TypeStub.Fault

/-!
Contract: what a run can see of the files.

Owns: `Files`, the answers of a file system to requests that change nothing.

Does not own: a file system that can change (`TypeStub.FileTree`).
-/

namespace TypeStub

structure Files where
  read : String → Except OsCause ByteArray
  holds : String → Bool

namespace Files

def readText (files : Files) (path : String) : Except OsCause String :=
  match files.read path with
  | .error cause => .error cause
  | .ok bytes =>
      match Utf8.decode bytes with
      | .error _ => .error .notText
      | .ok text => .ok text

end Files

end TypeStub
