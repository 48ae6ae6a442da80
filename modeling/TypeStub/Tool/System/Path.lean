import TypeStub.Tool.System.World

/-!
Contract: where paths lead.

Owns:
- `Found`, the end of a path;
- `World.locate`, the walk along a path, with the cause that stops it.

A link is followed on the way, up to a number of links, and at the end if that is wanted.
-/

namespace TypeStub.Tool

/-- Where a path leads: the directory that it ends in, the name there, and the node of that
name if there is one. The name is empty if the path ends with a step that has none. -/
structure Found where
  directory : Nat
  name : ByteText
  node? : Option Nat
deriving DecidableEq, Repr

namespace World

def longestName : Nat :=
  255

def longestPath : Nat :=
  4095

def greatestLinks : Nat :=
  40

def root : Nat :=
  0

/-- The steps of a path. A slash at the end stands for a step that stays. -/
def pathSteps (path : ByteText) : List ByteText :=
  let steps := (path.splitOn '/').filter (!·.isEmpty)
  if path.getLast? = some '/' then steps ++ [['.']] else steps

def startOf (path : ByteText) (directory : Nat) : Nat :=
  if path.head? = some '/' then root else directory

/-- The open file that a name stands for in the directory of open files. -/
def openedNode? (world : World) (process : Process) (name : ByteText) : Option Nat := do
  let number ← decimal? name
  if decimalText number ≠ name then none
  else
    let index ← process.descriptors.lookup number
    return (← world.opened[index]?).node

/-- What stands in a directory under a name: its node, and whether the name leads straight to
it like the name of an open file. -/
def child? (world : World) (process : Process) (here : Nat) (name : ByteText) :
    Except OsCause (Option Nat) :=
  match world.node? here with
  | some (.directory _ entries) => .ok (entries.lookup name)
  | some .descriptors => .ok (world.openedNode? process name)
  | _ => .error .notDirectory

def above (world : World) (here : Nat) : Nat :=
  match world.node? here with
  | some (.directory above _) => above
  | _ => root

/-- Go on from `here` by steps, where `follow` goes on behind a link. With `toLink` a link at
the end is not followed. -/
def walk (world : World) (process : Process) (toLink : Bool)
    (follow : (here : Nat) → (steps : List ByteText) → Except OsCause Found)
    (here : Nat) : List ByteText → Except OsCause Found
  | [] => .ok ⟨world.above here, [], some here⟩
  | step :: rest =>
      match world.child? process here step with
      | .error cause => .error cause
      | .ok child =>
          if step = ['.'] then walk world process toLink follow here rest
          else if step = ['.', '.'] then walk world process toLink follow (world.above here) rest
          else if longestName < step.length then .error .nameTooLong
          else
            match child with
            | none => if rest.isEmpty then .ok ⟨here, step, none⟩ else .error .notFound
            | some number =>
                match world.node? number with
                | some (.link target) =>
                    if rest.isEmpty && toLink then .ok ⟨here, step, some number⟩
                    else follow (startOf target here) (pathSteps target ++ rest)
                | _ =>
                    if rest.isEmpty then .ok ⟨here, step, some number⟩
                    else walk world process toLink follow number rest

/-- Go on from `here` by steps, with so many links at most. -/
def followed (world : World) (process : Process) (toLink : Bool) :
    (links : Nat) → (here : Nat) → (steps : List ByteText) → Except OsCause Found
  | 0 => world.walk process toLink fun _ _ => .error .tooManyLinks
  | links + 1 => world.walk process toLink (followed world process toLink links)

def locate (world : World) (process : Process) (toLink : Bool) (path : ByteText) :
    Except OsCause Found :=
  if path.isEmpty then .error .notFound
  else if longestPath < path.length then .error .nameTooLong
  else world.followed process toLink greatestLinks (startOf path process.directory) (pathSteps path)

/-- The number of the node at the end of a path. -/
def find (world : World) (process : Process) (path : ByteText) : Except OsCause Nat := do
  match (← world.locate process false path).node? with
  | some number => .ok number
  | none => .error .notFound

def status (world : World) (process : Process) (toLink : Bool) (path : ByteText) :
    Except OsCause Node := do
  match (← world.locate process toLink path).node?.bind world.node? with
  | some node => .ok node
  | none => .error .notFound

/-- The path that a directory has, with so many steps at most. -/
def pathFrom (world : World) : (steps : Nat) → (here : Nat) → ByteText
  | 0, _ => []
  | steps + 1, here =>
      if here = root then []
      else
        let above := world.above here
        let name := ((world.entries above).find? fun (_, number) => number = here).map (·.1)
        pathFrom world steps above ++ '/' :: name.getD []

def pathOf (world : World) (here : Nat) : ByteText :=
  if here = root then ['/'] else world.pathFrom world.nodes.size here

def findDirectory (world : World) (process : Process) (path : ByteText) : Except OsCause Nat := do
  let number ← world.find process path
  match world.node? number with
  | some (.directory _ _) | some .descriptors => .ok number
  | _ => .error .notDirectory

end World

end TypeStub.Tool
