import TypeStub.FileTree
import TypeStub.Text.Utf8
import TypeStub.Tool.System.Path

/-!
Contract: the world that programs are started in.

Owns:
- the directories, devices and programs that are always there;
- `World.ofTree`, that world with the files of a tree in the directory where programs start;
- `World.tree`, the files that stand there afterwards.
-/

namespace TypeStub.Tool

namespace World

/-- The names of directories that stand in the root besides those that hold something. -/
def bareDirectories : List String :=
  ["boot", "etc", "home", "media", "mnt", "opt", "root", "run", "srv", "sys", "var"]

def deviceNodes : List (String × Node) :=
  [("fd", .link "/proc/self/fd".toList), ("full", .device .full), ("null", .device .null),
   ("stderr", .link "/proc/self/fd/2".toList), ("stdin", .link "/proc/self/fd/0".toList),
   ("stdout", .link "/proc/self/fd/1".toList), ("tty", .device .terminal), ("zero", .device .zero)]

/-- The names of links in the root, each with where it leads. -/
def rootLinks : List (String × String) :=
  [("bin", "usr/bin"), ("lib", "usr/lib"), ("sbin", "usr/sbin")]

def programNames : List String :=
  ["cat", "dash", "false", "head", "sed", "sleep", "tail", "tr", "true", "wc"]

/-- A directory with nodes that hold nothing below them. -/
def addDirectory (world : World) (above : Nat) (name : String) (nodes : List (String × Node)) :
    World × Nat :=
  let (world, number) := world.addEntry above name.toList (.directory above [])
  (nodes.foldl (fun world (name, node) => (world.addEntry number name.toList node).1) world, number)

/-- The world without the files of programs, and the directory where programs start. -/
def bare : World × Nat :=
  let directories (names : List String) (above : Nat) (world : World) : World :=
    names.foldl (fun world name => (world.addDirectory above name []).1) world
  let world : World := ⟨#[.directory root []], #[]⟩
  let world := directories bareDirectories root world
  let world := rootLinks.foldl
    (fun world (name, target) => (world.addEntry root name.toList (.link target.toList)).1) world
  let (world, _) := world.addDirectory root "dev" deviceNodes
  let (world, processes) := world.addDirectory root "proc" []
  let (world, _) := world.addDirectory processes "self" [("fd", .descriptors)]
  let (world, user) := world.addDirectory root "usr" []
  let programs := programNames.map fun name => (name, Node.program name.toList)
  let (world, _) := world.addDirectory user "bin" (programs ++ [("sh", .link "dash".toList)])
  let world := directories ["lib", "sbin", "share"] user world
  let (world, site) := world.addDirectory user "local" []
  let world := directories ["bin", "sbin"] site world
  let (world, temporary) := world.addDirectory root "tmp" []
  world.addDirectory temporary "work" []

/-- Where the names of a tree lead below a directory, with the directories on the way. -/
def reach (world : World) (here : Nat) : List String → World × Nat
  | [] => (world, here)
  | name :: rest =>
      match (world.entries here).lookup (ofString name) with
      | some number => reach world number rest
      | none =>
          let (world, number) := world.addEntry here (ofString name) (.directory here [])
          reach world number rest

/-- The world with the files of a tree, and the directory that they stand in. -/
def ofTree (tree : FileTree) : World × Nat :=
  let (world, start) := bare
  (tree.entries.foldl (fun world (names, node) =>
    let (world, number) := world.reach start names
    match node with
    | .directory => world
    | .file bytes => world.putNode number (.file bytes)) world, start)

/-- The files and directories below a directory, up to a depth. -/
def below (world : World) : (depth : Nat) → (here : Nat) → (names : List String) →
    List (List String × FileNode)
  | 0, _, _ => []
  | depth + 1, here, names =>
      (world.entries here).flatMap fun (name, number) =>
        let names := names ++ [Utf8.decodeLossy (toBytes name)]
        match world.node? number with
        | some (.directory _ _) => (names, .directory) :: below world depth number names
        | some (.file bytes) => [(names, .file bytes)]
        | _ => []

/-- The tree of the files below a directory. -/
def tree (world : World) (here : Nat) : FileTree :=
  ⟨world.below world.nodes.size here []⟩

end World

end TypeStub.Tool
