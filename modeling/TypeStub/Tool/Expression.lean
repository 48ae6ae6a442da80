import TypeStub.Tool.Pattern.Reader
import TypeStub.Tool.Automaton.Groups
import TypeStub.Tool.Automaton.Lines

/-!
Contract: the search for regular expressions.

Owns:
- `Expression`, an expression that can be searched for, and `Expression.read`;
- `Occurrence`, where an expression occurs and what its groups hold;
- `Expression.find?`, the search for an occurrence.

Of the occurrences the one that starts first counts, and of those the longest one.
-/

namespace TypeStub.Tool

structure Occurrence where
  start : Nat
  finish : Nat
  /-- The texts of the groups by their places; the whole occurrence comes first. -/
  groups : Array (Option (Nat × Nat))
deriving DecidableEq, Repr, Inhabited

namespace Occurrence

def bare (start finish : Nat) : Occurrence :=
  ⟨start, finish, #[some (start, finish)]⟩

/-- The text of a group; the whole occurrence is group zero. -/
def group (occurrence : Occurrence) (text : Array Char) (number : Nat) : ByteText :=
  match occurrence.groups.getD number none with
  | none => []
  | some (start, finish) => (text.extract start finish).toList

end Occurrence

structure Expression where
  style : PatternStyle
  text : ByteText
  groups : Nat
  /-- The name of a class stands in one pair of brackets only. -/
  loose : Bool
  automaton : Automaton
  /-- The automaton where nobody asks what the groups hold. -/
  bare : Automaton
  nodes : Array Automaton.Node
  entry : Nat
  conditional : Bool

namespace Expression

def read (style : PatternStyle) (text : ByteText) : Except PatternDefect Expression := do
  let ⟨pattern, groups, asked, loose⟩ ← PatternText.read style text
  let count := Automaton.nodeCount (fun _ => true) pattern
  let finish : Automaton.Node := ⟨.finish, .free, false, none, [], count⟩
  let placed := Automaton.place (fun _ => true) pattern count count
    (Array.replicate (count + 1) finish)
  return {
    style, text, groups, loose
    automaton := .ofPattern pattern groups asked false
    bare := .ofPattern pattern groups asked true
    nodes := placed.nodes
    entry := placed.entry
    conditional := placed.nodes.any (·.kind == .edge) }

/-- The bytes with which an occurrence can start, unless it can be empty or start with the
text of a group. -/
def firstBytes? (automaton : Automaton) : Option (Array Bool) :=
  automaton.initial.foldl (fun found number =>
    match found, (automaton.node number).kind with
    | some bytes, .one set =>
        some (set.runs.foldl (fun bytes (low, high) =>
          (List.range' low.toNat (high.toNat + 1 - low.toNat)).foldl (fun bytes byte =>
            bytes.setIfInBounds byte true) bytes) bytes)
    | some _, .finish | some _, .again _ => none
    | found, _ => found) (some (Array.replicate 256 false))

/-- An occurrence can start behind the start of the text. -/
def startsLater (automaton : Automaton) (byLine : Bool) : Bool :=
  let starts (before : Surroundings) : Bool :=
    !(Automaton.State.entering automaton automaton.initial before).nodes.isEmpty
  starts .plain || starts .inWord || (byLine && starts .atLine)

/-- The occurrence that starts at a place, or how many further places need no look. -/
def findAt (automaton : Automaton) (withGroups : Bool) (text : SearchText) :
    Occurrence ⊕ Nat :=
  let withGroups := withGroups && automaton.groups > 0
  let demand : Automaton.Demand := ⟨true, withGroups || automaton.asks⟩
  let reached := automaton.longest text demand
  let shifted (held : Automaton.Held) : Option (Nat × Nat) :=
    match held.start, held.finish with
    | some start, some finish => some (text.origin + start, text.origin + finish)
    | _, _ => none
  match reached.finish with
  | none => .inr reached.idle
  | some finish =>
      let sifted : Option Automaton.Sifted :=
        if (withGroups && automaton.forks) || automaton.asks then
          automaton.sift? text reached.progress finish
        else
          let state := Automaton.stateAt reached.progress.log finish
          let node := (state.bind fun state => state.end? automaton (text.after finish)).getD 0
          some ⟨finish, node, reached.progress.log⟩
      match sifted with
      | none => .inr 0
      | some sifted =>
          let start := text.origin
          if withGroups then
            match automaton.trace? text sifted.states sifted.finish sifted.node with
            | none => .inr (text.size + 1)
            | some held =>
                let named := (Array.range held.size).map fun number =>
                  match number with
                  | 0 => held[0]?
                  | group + 1 =>
                      held[(automaton.names.lookup group).getD group + 1]?
                .inl ⟨start, start + sifted.finish, named.map (·.bind shifted)⟩
          else .inl (.bare start (start + sifted.finish))

def findFrom? (automaton : Automaton) (withGroups byLine : Bool) (bytes : Array Char)
    (first : Option (Array Bool)) (last : Nat) :
    (steps : Nat) → (place : Nat) → Option Occurrence
  | 0, _ => none
  | steps + 1, place =>
      if last < place then none
      else
        let canStart : Bool := match first with
          | none => true
          | some first => match bytes[place]? with
              | none => false
              | some c => first.getD c.toNat false
        if !canStart then
          findFrom? automaton withGroups byLine bytes first last steps (place + 1)
        else
          match findAt automaton withGroups ⟨bytes, place, byLine⟩ with
          | .inl occurrence => some occurrence
          | .inr idle =>
              findFrom? automaton withGroups byLine bytes first last steps (place + 1 + idle)

/-- The first occurrence from a place on, as the automaton finds it. -/
def search? (expression : Expression) (withGroups byLine : Bool) (bytes : Array Char)
    (place : Nat) : Option Occurrence :=
  let automaton := if withGroups then expression.automaton else expression.bare
  let bytes := if expression.style.folds then bytes.map Char.toUpper else bytes
  let later := startsLater automaton byLine
  if !later && place != 0 then none
  else
    findFrom? automaton withGroups byLine bytes (firstBytes? automaton)
      (if later then bytes.size else 0) (bytes.size + 1 - place) place

/-- The first occurrence from a place on, where no occurrence goes over the end of a line. -/
def searchLines? (expression : Expression) (withGroups : Bool) (lineEnd : Char)
    (bytes : Array Char) : (steps : Nat) → (start place : Nat) → Option Occurrence
  | 0, _, _ => none
  | steps + 1, start, place =>
      let line := (bytes.extract start bytes.size).takeWhile (· ≠ lineEnd)
      match expression.search? withGroups false line (place - start) with
      | some occurrence =>
          let shift := fun (first, last) => (start + first, start + last)
          some ⟨start + occurrence.start, start + occurrence.finish,
            occurrence.groups.map (·.map shift)⟩
      | none =>
          let next := start + line.size + 1
          if bytes.size < next then none
          else searchLines? expression withGroups lineEnd bytes steps next next

def outlook (expression : Expression) (skips : Bool) (lineEnd : Char) (bytes : Array Char) :
    Automaton.Outlook :=
  let text := if expression.style.folds then bytes.toList.map Char.toUpper else bytes.toList
  Automaton.outlookFrom expression.nodes expression.entry skips lineEnd none [] text

def nextEnd? (lineEnd : Char) (bytes : Array Char) (place : Nat) : Option Nat :=
  ((bytes.extract place bytes.size).findIdx? (· == lineEnd)).map (place + ·)

/-- The first start of the text or of a line from a place on. -/
def nextStart? (expression : Expression) (lineEnd : Char) (bytes : Array Char) (place : Nat) :
    Option Nat :=
  if place = 0 then some 0
  else if !expression.style.byLine then none
  else (nextEnd? lineEnd bytes (place - 1)).map (· + 1)

/-- The first end of the text or of a line from a place on. -/
def nextFinish (expression : Expression) (lineEnd : Char) (bytes : Array Char) (place : Nat) :
    Nat :=
  let found := if expression.style.byLine then nextEnd? lineEnd bytes place else none
  found.getD bytes.size

/-- The first occurrence from a place on. A search from the start of a text is given up early
if going over its lines shows that there is none. -/
def find? (expression : Expression) (withGroups : Bool) (lineEnd : Char) (bytes : Array Char)
    (place : Nat) : Option Occurrence :=
  let byLine := expression.style.byLine
  if expression.text = ['^'] then
    (expression.nextStart? lineEnd bytes place).map fun place => .bare place place
  else if expression.text = ['$'] then
    let finish := expression.nextFinish lineEnd bytes place
    some (.bare finish finish)
  else
    let search (_ : Unit) : Option Occurrence :=
      if byLine && lineEnd != '\n' then
        let start := ((List.range place).reverse.find? fun before =>
          bytes[before]? == some lineEnd).elim 0 (· + 1)
        expression.searchLines? withGroups lineEnd bytes (bytes.size + 1) start place
      else expression.search? withGroups byLine bytes place
    if place = 0 && expression.conditional then
      if expression.outlook true lineEnd bytes == .hopeless then none
      else if !withGroups && byLine &&
          expression.outlook false lineEnd bytes == .certain then
        some (.bare 0 0)
      else search ()
    else search ()

def occursIn (expression : Expression) (lineEnd : Char) (text : ByteText) : Bool :=
  (expression.find? false lineEnd text.toArray 0).isSome

end Expression

end TypeStub.Tool
