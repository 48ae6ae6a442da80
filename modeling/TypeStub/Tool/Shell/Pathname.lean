import TypeStub.Tool.Shell.Wildcard
import TypeStub.Tool.System.Path

/-!
Contract: the paths that a pattern stands for.

Owns: `pathnames`, the paths in their order that fit the bytes of a field.

Each step of a path is a pattern of its own, which never fits a slash. A dot in front of a name
has to be written.
-/

namespace TypeStub.Tool

/-- The names that stand in a directory; nothing if it is none. -/
def World.names (world : World) (process : Process) (here : Nat) : List ByteText :=
  match world.node? here with
  | some (.directory _ entries) => ['.'] :: ['.', '.'] :: entries.map (·.1)
  | some .descriptors => ['.'] :: ['.', '.'] :: process.descriptors.map (decimalText ·.1)
  | _ => []

def ascending (texts : List ByteText) : List ByteText :=
  texts.mergeSort fun a b => decide (String.ofList a ≤ String.ofList b)

namespace Shell

/-- The sign fits more than one text. -/
def Wildcard.isOpen : Wildcard → Bool
  | .byte _ => false
  | _ => true

def plainText? (signs : List Wildcard) : Option ByteText :=
  signs.mapM fun
    | .byte c => some c
    | _ => none

/-- The name fits the signs as a step of a path. -/
def fitsName (signs : List Wildcard) (name : ByteText) : Bool :=
  (name.head? ≠ some '.' || signs.head? = some (.byte '.')) && fits signs name

/-- The paths that steps stand for, behind what is already known of them. -/
def pathsFrom (world : World) (process : Process) (before : ByteText) :
    List (List Wildcard) → List ByteText
  | [] => if (world.status process true before).isOk then [before] else []
  | step :: rest =>
      let slash : ByteText := if rest.isEmpty then [] else ['/']
      match plainText? step with
      | some text => pathsFrom world process (before ++ text ++ slash) rest
      | none =>
          match world.find process (if before.isEmpty then ['.'] else before) with
          | .error _ => []
          | .ok here =>
              let names := (world.names process here).filter (fitsName step)
              if rest.isEmpty then names.map (before ++ ·)
              else names.flatMap fun name => pathsFrom world process (before ++ name ++ slash) rest

def fieldSteps (field : List (Char × Bool)) : List (List (Char × Bool)) :=
  field.splitOnP fun (c, _) => c == '/'

/-- The paths that a field stands for; the field itself if there are none. -/
def pathnames (world : World) (process : Process) (field : List (Char × Bool)) : List ByteText :=
  let steps := (fieldSteps field).map wildcards
  let paths :=
    if steps.any fun signs => signs.any Wildcard.isOpen then pathsFrom world process [] steps else []
  if paths.isEmpty then [field.map (·.1)] else ascending paths

end Shell

end TypeStub.Tool
