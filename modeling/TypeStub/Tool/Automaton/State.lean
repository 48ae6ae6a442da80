import TypeStub.Tool.Automaton

/-!
Contract: the nodes that an automaton is at.

Owns:
- `SearchText`, a text that is searched from a place on;
- `Automaton.State`, nodes that a search is at together;
- `Automaton.State.step?`, the nodes behind a byte.

A state remembers the nodes with which it was made. Those of them whose condition does not
hold there are left out.
-/

namespace TypeStub.Tool

/-- A text that is searched. Places in it are counted from the origin. -/
structure SearchText where
  bytes : Array Char
  origin : Nat
  byLine : Bool

namespace SearchText

/-- How many bytes there are from the origin on. -/
def size (text : SearchText) : Nat :=
  text.bytes.size - text.origin

def byte? (text : SearchText) (place : Nat) : Option Char :=
  text.bytes[text.origin + place]?

def before (text : SearchText) (place : Nat) : Surroundings :=
  match text.origin + place with
  | 0 => .atStart
  | last + 1 =>
      match text.bytes[last]? with
      | none => .atFinish
      | some c => .ofByte text.byLine c

def after (text : SearchText) (place : Nat) : Surroundings :=
  match text.byte? place with
  | none => .atFinish
  | some c => .ofByte text.byLine c

/-- So many bytes are the same behind two places. -/
def agrees (text : SearchText) (a b : Nat) : (length : Nat) → Bool
  | 0 => true
  | length + 1 =>
      match text.byte? a, text.byte? b with
      | some c, some d => c == d && agrees text (a + 1) (b + 1) length
      | _, _ => false

end SearchText

namespace Automaton

structure State where
  entered : NodeSet
  before : Surroundings
  nodes : NodeSet
  takers : NodeSet
  finishes : Bool
  asks : Bool
  conditional : Bool
deriving Inhabited

namespace State

def plain (automaton : Automaton) (nodes : NodeSet) : State :=
  let kinds := nodes.map automaton.node
  { entered := nodes, before := .plain, nodes
    takers := nodes.filter fun number => !(automaton.node number).kind.isFree
    finishes := kinds.any (·.kind == .finish)
    asks := kinds.any fun node => match node.kind with
      | .again _ => true
      | _ => false
    conditional := kinds.any fun node => !node.condition.isFree }

/-- The state that the given nodes make at a place. Without conditions the place does not
matter. -/
def entering (automaton : Automaton) (nodes : NodeSet) (before : Surroundings) : State :=
  let state := plain automaton nodes
  if state.conditional then
    let holds (number : Nat) : Bool := (automaton.node number).condition.allowsBefore before
    { state with
      before
      nodes := nodes.filter holds
      takers := state.takers.filter holds }
  else state

/-- The state that the given nodes make at a place, if there are any. -/
def entering? (automaton : Automaton) (nodes : NodeSet) (before : Surroundings) :
    Option State :=
  if nodes.isEmpty then none else some (entering automaton nodes before)

def agrees (a b : State) : Bool :=
  a.entered == b.entered && a.before == b.before

/-- The node takes the byte, which is the one that its condition sees behind the place. -/
def takes (node : Node) (c : Char) : Bool :=
  match node.kind with
  | .one set =>
      set.has c && (!node.condition.lineAfter || c == '\n') && !node.condition.finishAfter &&
        (!node.condition.wordAfter || isWordByte c) &&
        (!node.condition.noWordAfter || !isWordByte c)
  | _ => false

def step? (automaton : Automaton) (state : State) (c : Char) : Option State :=
  let reached := state.takers.foldl (fun reached number =>
    let node := automaton.node number
    if takes node c then NodeSet.union reached (automaton.reachedFrom (node.next.getD 0)) else reached) []
  entering? automaton reached (.ofByte true c)

/-- The last node can be left at a place where the given surroundings follow. -/
def end? (automaton : Automaton) (state : State) (after : Surroundings) : Option Nat :=
  state.nodes.find? fun number =>
    let node := automaton.node number
    node.kind == .finish && node.condition.allowsAfter after

end State

def takesAt (automaton : Automaton) (text : SearchText) (number place : Nat) : Bool :=
  let node := automaton.node number
  match node.kind, text.byte? place with
  | .one set, some c => set.has c && node.condition.allowsAfter (text.after place)
  | _, _ => false

def start (automaton : Automaton) (text : SearchText) : State :=
  State.entering automaton automaton.initial (text.before 0)

end Automaton

end TypeStub.Tool
