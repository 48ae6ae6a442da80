import TypeStub.Tool.Shell.Builtin.Variables

/-!
Contract: the command that reads a line.

Owns: `read`, with the division of a line among variables.

The line is read byte by byte, so that what stands behind it is left to others.
-/

namespace TypeStub.Tool.Shell

/-- Read a byte of the input; nothing at its end. -/
def readByte : Job (Option Char) := do
  match ← readSome 0 1 with
  | .ok (c :: _) => return some c
  | _ => return none

/-- Read a line of at most so many bytes: its bytes with whether a backslash stood before
them, and whether it has an end. -/
def readLine (raw : Bool) : (steps : Nat) → (escaped : Bool) → (line : List (Char × Bool)) →
    Job (List (Char × Bool) × Bool)
  | 0, _, line => return (line.reverse, false)
  | steps + 1, escaped, line => do
      match ← readByte with
      | none => return (line.reverse, false)
      | some '\x00' => readLine raw steps escaped line
      | some c =>
          if escaped then readLine raw steps false (if c = '\n' then line else (c, true) :: line)
          else if c = '\\' ∧ !raw then readLine raw steps true line
          else if c = '\n' then return (line.reverse, true)
          else readLine raw steps false ((c, false) :: line)

/-- The values of so many variables for a line. The last one has all that is left but blanks
at its end. -/
def lineValues (ifs : ByteText) : (count : Nat) → List (Char × Bool) → List ByteText
  | 0, _ => []
  | count + 1, line =>
      let isBlank (c : Char × Bool) : Bool :=
        !c.2 && ifs.contains c.1 && (c.1 == ' ' || c.1 == '\t' || c.1 == '\n')
      let divides (c : Char × Bool) : Bool := !c.2 && ifs.contains c.1
      let line := line.dropWhile isBlank
      let field := line.takeWhile fun c => !divides c
      let behind := line.drop field.length
      let blanks := behind.takeWhile isBlank
      let next := behind.drop blanks.length
      let next := match next with
        | c :: rest => if divides c then rest.dropWhile isBlank else next
        | [] => []
      if count = 0 then
        let rest := if next.isEmpty then field else (line.reverse.dropWhile isBlank).reverse
        [rest.map (·.1)]
      else field.map (·.1) :: lineValues ifs count next

/-- Read a line of the input into variables. -/
def read : Builtin := fun _ _ arguments => do
  let options ← letters "p:r" arguments
  let names := options.rest
  if names.isEmpty then abort "arg count".toList
  else
    let raw := options.letters.any fun (letter, _) => letter == 'r'
    let (line, ended) ← readLine raw greatestReads false []
    let values := lineValues (← separators) names.length line
    (names.zip values).forM fun (name, value) => do assign (← nameIn name) value
    return if ended then 0 else 1

end TypeStub.Tool.Shell
