/-!
Contract: paths, written with a slash between the names of directories and files.

Owns:
- joining a path to a directory's;
- the steps of a path;
- the directory that a path names something in, and the directories above it.

Nothing here looks at files, and nothing is normalised: a path keeps its spelling as far as
it is kept.
-/

namespace TypeStub.Path

/-- The path of `name` in a directory. A name that starts with a slash is a whole path. -/
def join (directory name : String) : String :=
  if name.startsWith "/" then name
  else if directory.isEmpty || directory.endsWith "/" then directory ++ name
  else directory ++ "/" ++ name

def steps (path : String) : List String :=
  (path.toList.splitOn '/').map String.ofList

def ofSteps (steps : List String) : String :=
  "/".intercalate steps

/-- The piece stays where it is: it is empty or a single dot. -/
def isIdle (step : String) : Bool :=
  step == "" || step == "."

/-- The pieces without the idle ones at the end. -/
def dropIdle (steps : List String) : List String :=
  (steps.reverse.dropWhile isIdle).reverse

/-- Split the pieces into an idle one at the very front, which says where the path starts,
and the rest. -/
def origin : List String → List String × List String
  | [] => ([], [])
  | first :: rest => if isIdle first then ([first], rest) else ([], first :: rest)

/-- The directory that a path names something in: the path without its last name. The empty
path and the root have none. -/
def parent? (path : String) : Option String :=
  match origin (steps path) with
  | (start, names) =>
      match dropIdle names with
      | [] => if start = ["."] then some "" else none
      | name :: rest =>
          let above := dropIdle (name :: rest).dropLast
          if above = [] ∧ start = [""] then some "/" else some (ofSteps (start ++ above))

/-- The path and the directories above it, at most `count` of them, from the inside out,
without the empty path and the root. -/
def ancestorsUpTo : (count : Nat) → (path : String) → List String
  | 0, _ => []
  | count + 1, path =>
      match parent? path with
      | none => []
      | some above => path :: ancestorsUpTo count above

/-- The path and the directories above it, from the inside out, without the empty path and
the root. -/
def ancestors (path : String) : List String :=
  ancestorsUpTo (steps path).length path

end TypeStub.Path
