import TypeStub.Files
import TypeStub.Files.Path
import TypeStub.NameSet

/-!
Contract: a tree of directories and files.

Owns:
- `FileTree`, which maps the names on the way from the root to a file or a directory;
- the walk along a path, with the cause that stops it;
- reading and writing files and making directories.

Does not own: rights, links, devices and disks that are full or fail. So a file is written as a
whole or stays as it is, and every cause comes from the path and from what stands on it.

A path is read from the root of the tree, also one that starts with a slash.
-/

namespace TypeStub

inductive FileNode where
  | directory
  | file (bytes : ByteArray)

/-- Files and directories by the names on the way to them. The root is always there. -/
structure FileTree where
  entries : List (List String × FileNode)

namespace FileTree

def empty : FileTree :=
  ⟨[]⟩

instance : EmptyCollection FileTree := ⟨empty⟩

/-- What stands at the end of the names. -/
def node? (tree : FileTree) : List String → Option FileNode
  | [] => some .directory
  | names => tree.entries.lookup names

/-- The tree with a file or directory in a place. -/
def put (tree : FileTree) (names : List String) (node : FileNode) : FileTree :=
  ⟨(names, node) :: tree.entries.filter fun entry => entry.1 ≠ names⟩

def longestName : Nat :=
  255

def longestPath : Nat :=
  4095

/-- Go on from `here` by the pieces of a path. Only a directory can be left; the end of the
way need not be there. -/
def walk (tree : FileTree) (here : List String) : List String → Except OsCause (List String)
  | [] => .ok here
  | step :: rest =>
      match tree.node? here with
      | none => .error .notFound
      | some (.file _) => .error .notDirectory
      | some .directory =>
          if Path.isIdle step then walk tree here rest
          else if step = ".." then walk tree here.dropLast rest
          else if longestName < step.utf8ByteSize then .error .nameTooLong
          else walk tree (here ++ [step]) rest

def checkPath (path : String) : Except OsCause Unit :=
  if path.contains '\x00' then .error .nameWithNul
  else if path.isEmpty then .error .notFound
  else if longestPath < path.utf8ByteSize then .error .nameTooLong
  else .ok ()

/-- The place that a path leads to, which need not be there. -/
def locate (tree : FileTree) (steps : List String) (path : String) :
    Except OsCause (List String) := do
  checkPath path
  walk tree [] steps

def stepsUnslashed (path : String) : List String :=
  ((Path.steps path).reverse.dropWhile (· == "")).reverse

def find (tree : FileTree) (path : String) : Except OsCause FileNode := do
  match tree.node? (← tree.locate (Path.steps path) path) with
  | none => .error .notFound
  | some node => .ok node

def read (tree : FileTree) (path : String) : Except OsCause ByteArray := do
  match ← tree.find path with
  | .directory => .error .isDirectory
  | .file bytes => .ok bytes

def holds (tree : FileTree) (path : String) : Bool :=
  match tree.find path with
  | .ok _ => true
  | .error _ => false

def isDirectory (tree : FileTree) (path : String) : Bool :=
  match tree.find path with
  | .ok .directory => true
  | _ => false

/-- The tree as a reader meets it. -/
def files (tree : FileTree) : Files where
  read := tree.read
  holds := tree.holds

/-- The steps that a request to write to a path takes. A slash at the end says that the last
name is a directory's, which is not looked at. -/
def stepsToWrite (path : String) : List String :=
  if path.endsWith "/" then (stepsUnslashed path).dropLast ++ ["."] else stepsUnslashed path

/-- The tree with `bytes` in the file of that path, which may be new. -/
def write (tree : FileTree) (path : String) (bytes : ByteArray) : Except OsCause FileTree := do
  let names ← tree.locate (stepsToWrite path) path
  match tree.node? names with
  | some .directory => .error .isDirectory
  | _ => .ok (tree.put names (.file bytes))

def makeDirectory (tree : FileTree) (path : String) : Except OsCause FileTree := do
  let names ← tree.locate (stepsUnslashed path) path
  match tree.node? names with
  | some _ => .error .alreadyExists
  | none => .ok (tree.put names .directory)

/-- Make the first of the directories; a directory that is already there will do. -/
def ensureDirectory (tree : FileTree) (path : String) : Except OsCause Unit × FileTree :=
  match tree.makeDirectory path with
  | .ok made => (.ok (), made)
  | .error cause => if tree.isDirectory path then (.ok (), tree) else (.error cause, tree)

/-- Make the first of the directories, and those after it, which it stands in, as far as
they are missing. What was made before a failure stays. -/
def ensureDirectories (tree : FileTree) : List String → Except OsCause Unit × FileTree
  | [] => (.ok (), tree)
  | path :: above =>
      match tree.makeDirectory path with
      | .error .notFound =>
          match ensureDirectories tree above with
          | (.error cause, made) => (.error cause, made)
          | (.ok (), made) => made.ensureDirectory path
      | _ => tree.ensureDirectory path

def makeDirectories (tree : FileTree) (path : String) : Except OsCause Unit × FileTree :=
  tree.ensureDirectories (Path.ancestors path)

/-- Write a text to the file of that path, making the directory that it stands in. -/
def save (tree : FileTree) (path text : String) : Except Fault Unit × FileTree :=
  let directory := (Path.parent? path).getD ""
  match tree.makeDirectories directory with
  | (.error cause, made) => (.error (.io directory cause), made)
  | (.ok (), made) =>
      match made.write path text.toUTF8 with
      | .error cause => (.error (.io path cause), made)
      | .ok written => (.ok (), written)

/-- All files and directories in ascending order, a slash after each directory. -/
def listing (tree : FileTree) : List String :=
  (NameSet.ofList (tree.entries.map fun (names, node) =>
    match node with
    | .directory => Path.ofSteps names ++ "/"
    | .file _ => Path.ofSteps names)).items

end FileTree

end TypeStub
