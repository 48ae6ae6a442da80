import TypeStub.Tool.Automaton

/-!
Contract: whether a text with lines has an occurrence at all.

Owns:
- `Automaton.Outlook`, what can be said without looking at what groups hold;
- `Automaton.outlook`, which goes over a text once with all nodes together.

Here both ends of the text are ends of a line, each line has its ends, and a condition holds
or not by the bytes on both sides of a place alone.
-/

namespace TypeStub.Tool.Automaton

/-- What can be said without looking at what groups hold. -/
inductive Outlook where
  | hopeless
  | certain
  /-- It depends on what groups hold. -/
  | open'
deriving DecidableEq, Repr

/-- The condition holds where the byte that ends lines, or an end of the text, is the end of
a line. -/
def holdsInLines (condition : Condition) (lineEnd : Char) (before after : Option Char) : Bool :=
  let isLine (c : Option Char) : Bool := c.all (· == lineEnd)
  let isWord (c : Option Char) : Bool := c.any isWordByte
  (!condition.wordBefore || isWord before) && (!condition.noWordBefore || !isWord before) &&
    (!(condition.lineBefore || condition.startBefore) || isLine before) &&
    (!condition.wordAfter || isWord after) && (!condition.noWordAfter || !isWord after) &&
    (!(condition.lineAfter || condition.finishAfter) || isLine after)

/-- The nodes that are reached between two bytes. With `skips` a node that asks for a group is
passed as well. -/
def reachInLines (nodes : Array Node) (skips : Bool) (lineEnd : Char)
    (before after : Option Char) : (steps : Nat) → NodeSet → (number : Nat) → NodeSet
  | 0, found, _ => found
  | steps + 1, found, number =>
      if found.has number then found
      else
        match nodes[number]? with
        | none => found
        | some node =>
            let passes : Bool := match node.kind with
              | .edge => holdsInLines node.condition lineEnd before after
              | .again _ => skips
              | kind => kind.isFree
            let found := NodeSet.put number found
            if passes then
              node.edges.foldl (reachInLines nodes skips lineEnd before after steps) found
            else found

/-- Go over a text. `left` holds the nodes behind the last byte. -/
def outlookFrom (nodes : Array Node) (entry : Nat) (skips : Bool) (lineEnd : Char) :
    (before : Option Char) → (left : NodeSet) → List Char → Outlook
  | before, left, text =>
      let after := text.head?
      let here := (NodeSet.put entry left).foldl
        (reachInLines nodes skips lineEnd before after manySteps) []
      let kinds := here.filterMap fun number => (nodes[number]?).map (·.kind)
      let asks (kind : NodeKind) : Bool := match kind with
        | .again _ => true
        | _ => false
      if !skips && kinds.any asks then .open'
      else if kinds.any (· == .finish) then .certain
      else
        match text with
        | [] => .hopeless
        | c :: rest =>
            let left := here.foldl (fun left number =>
              match nodes[number]? with
              | none => left
              | some node =>
                  match node.kind with
                  | .one set => if set.has c then NodeSet.put (node.next.getD 0) left else left
                  | .again _ => NodeSet.put number left
                  | _ => left) []
            outlookFrom nodes entry skips lineEnd (some c) left rest
termination_by _ _ text => text.length

end TypeStub.Tool.Automaton
