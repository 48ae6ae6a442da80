import TypeStub.Tool.LineEditor.Program

/-!
Contract: what a substitution makes of a text.

Owns:
- the text that a replacement writes for an occurrence, with its changes of case;
- `substitute`, which replaces the occurrences of an expression.

An empty occurrence right behind another one does not count.
-/

namespace TypeStub.Tool.LineEditor

/-- A byte in a case. What is no character becomes the last byte. -/
def LetterCase.put (case : LetterCase) (c : Char) : Char :=
  if '\x7F' < c then '\xFF'
  else
    match case with
    | .upper => c.toUpper
    | .lower => c.toLower

def CaseChange.put (change : CaseChange) : ByteText → ByteText
  | [] => []
  | c :: rest =>
      let others := match change.all with
        | none => rest
        | some case => rest.map case.put
      match change.first, change.all with
      | some case, _ | none, some case => case.put c :: others
      | none, none => c :: others

/-- What parts of a replacement write for an occurrence in a text. A change of the first
letter goes over to the next part if its group holds nothing. -/
def writtenBy (occurrence : Occurrence) (text : Array Char) (carried : Option LetterCase) :
    List ReplacementPart → ByteText
  | [] => []
  | part :: parts =>
      let change : CaseChange := { part.change with first := part.change.first.or carried }
      let start := change.put part.text
      let change := if part.text.isEmpty then change else { change with first := none }
      match part.group with
      | none => start ++ writtenBy occurrence text none parts
      | some group =>
          let held := occurrence.group text group
          let carried :=
            if held.isEmpty && part.change.first.isSome then change.first else none
          start ++ (change.put held ++ writtenBy occurrence text carried parts)

/-- Walk over a text from a place on, where `done` is written, the last byte first. `seen`
counts the occurrences behind, and `touching` says that one has just ended. -/
def substituteFrom (s : Substitution) (expression : Expression) (lineEnd : Char)
    (text : Array Char) :
    (steps seen : Nat) → (changed touching : Bool) → (done : ByteText) → (place : Nat) →
      ByteText × Bool
  | 0, _, changed, _, done, place => (done.reverse ++ text.toList.drop place, changed)
  | steps + 1, seen, changed, touching, done, place =>
      match expression.find? true lineEnd text place with
      | none => (done.reverse ++ text.toList.drop place, changed)
      | some occurrence =>
          let isEmpty : Bool := occurrence.start == occurrence.finish
          let skipped : Bool := isEmpty && touching && occurrence.start == place
          let between := (text.extract place occurrence.start).toList
          let done := between.reverse ++ done
          let seen := if skipped then seen else seen + 1
          let replaces : Bool := !skipped && s.nth ≤ seen
          let done :=
            if replaces then (writtenBy occurrence text none s.replacement).reverse ++ done
            else (occurrence.group text 0).reverse ++ done
          let changed := changed || replaces
          if replaces && !s.every then
            (done.reverse ++ text.toList.drop occurrence.finish, true)
          else if isEmpty then
            match text[occurrence.finish]? with
            | none => (done.reverse, changed)
            | some c =>
                substituteFrom s expression lineEnd text steps seen changed false (c :: done)
                  (occurrence.finish + 1)
          else
            substituteFrom s expression lineEnd text steps seen changed true done
              occurrence.finish

/-- The text after a substitution, and whether anything was replaced. -/
def substitute (s : Substitution) (expression : Expression) (lineEnd : Char) (text : ByteText) :
    ByteText × Bool :=
  substituteFrom s expression lineEnd text.toArray (2 * text.length + 2) 0 false false [] 0

end TypeStub.Tool.LineEditor
