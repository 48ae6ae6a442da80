import TypeStub.Tool.Pattern

/-!
Contract: the automaton of a regular expression.

Owns:
- `Automaton.Node`, a node with its ways on;
- `Automaton`, the nodes with what each of them reaches without taking a byte;
- `Automaton.ofPattern`, which builds the automaton of a pattern.

The parts of a pattern are numbered from left to right, a choice behind its alternatives.
A condition is carried on to all that can be reached through it without taking a byte: those
nodes are copied, and the copies have to meet the condition.
-/

namespace TypeStub.Tool

/-! ## Sets of numbers -/

/-- Numbers in ascending order. -/
abbrev NodeSet :=
  List Nat

namespace NodeSet

def put (number : Nat) : NodeSet → NodeSet
  | [] => [number]
  | other :: rest =>
      if number < other then number :: other :: rest
      else if number = other then other :: rest
      else other :: put number rest

def union : NodeSet → NodeSet → NodeSet
  | [], other => other
  | set, [] => set
  | a :: set, b :: other =>
      if a < b then a :: union set (b :: other)
      else if b < a then b :: union (a :: set) other
      else a :: union set other
termination_by set other => set.length + other.length

def has (set : NodeSet) (number : Nat) : Bool :=
  set.contains number

def common : NodeSet → NodeSet → NodeSet
  | [], _ => []
  | _, [] => []
  | a :: set, b :: other =>
      if a < b then common set (b :: other)
      else if b < a then common (a :: set) other
      else a :: common set other
termination_by set other => set.length + other.length

end NodeSet

namespace Automaton

/-! ## Nodes -/

inductive NodeKind where
  | one (set : ByteClass)
  /-- It takes what the group holds. -/
  | again (number : Nat)
  | opening (number : Nat)
  | closing (number : Nat) (optional : Bool)
  | fork
  | edge
  | finish
deriving DecidableEq, Repr, Inhabited

/-- The node is left without taking a byte. -/
def NodeKind.isFree : NodeKind → Bool
  | .opening _ | .closing _ _ | .fork | .edge => true
  | .one _ | .again _ | .finish => false

structure Node where
  kind : NodeKind
  condition : Condition
  copied : Bool
  next : Option Nat
  /-- The nodes that are reached without taking a byte. -/
  edges : NodeSet
  original : Nat
deriving DecidableEq, Repr, Inhabited

/-- How many nodes a pattern has. `keeps` tells which groups have nodes. -/
def nodeCount (keeps : Nat → Bool) : Pattern → Nat
  | .nothing => 0
  | .one _ _ | .edge _ _ | .again _ _ => 1
  | .sequence first second => nodeCount keeps first + nodeCount keeps second
  | .either _ first second => nodeCount keeps first + nodeCount keeps second + 1
  | .star _ body => nodeCount keeps body + 1
  | .group number _ body =>
      nodeCount keeps body + if keeps number || body.isNothing then 2 else 0

/-- Nodes of a part of a pattern. -/
structure Placed where
  nodes : Array Node
  start : Nat
  entry : Nat

/-- Put the nodes of a pattern in front of the number `finish`. Behind the pattern the node
`next` follows. -/
def place (keeps : Nat → Bool) :
    Pattern → (finish next : Nat) → Array Node → Placed
  | .nothing, finish, next, nodes => ⟨nodes, finish, next⟩
  | .one copied set, finish, next, nodes =>
      let here := finish - 1
      ⟨nodes.setIfInBounds here ⟨.one set, .free, copied, some next, [], here⟩, here, here⟩
  | .edge copied condition, finish, next, nodes =>
      let here := finish - 1
      ⟨nodes.setIfInBounds here ⟨.edge, condition, copied, none, [next], here⟩, here, here⟩
  | .again copied number, finish, next, nodes =>
      let here := finish - 1
      ⟨nodes.setIfInBounds here ⟨.again number, .free, copied, some next, [next], here⟩,
        here, here⟩
  | .sequence first second, finish, next, nodes =>
      let behind := place keeps second finish next nodes
      place keeps first behind.start behind.entry behind.nodes
  | .either copied first second, finish, next, nodes =>
      let here := finish - 1
      let behind := place keeps second here next nodes
      let before := place keeps first behind.start next behind.nodes
      let edges := NodeSet.put before.entry [behind.entry]
      ⟨before.nodes.setIfInBounds here ⟨.fork, .free, copied, none, edges, here⟩,
        before.start, here⟩
  | .star copied body, finish, next, nodes =>
      let here := finish - 1
      let inner := place keeps body here here nodes
      let edges := NodeSet.put inner.entry [next]
      ⟨inner.nodes.setIfInBounds here ⟨.fork, .free, copied, none, edges, here⟩,
        inner.start, here⟩
  | .group number optional body, finish, next, nodes =>
      if keeps number || body.isNothing then
        let here := finish - 1
        let inner := place keeps body here here nodes
        let opening := inner.start - 1
        let nodes := inner.nodes.setIfInBounds here
          ⟨.closing number optional, .free, false, none, [next], here⟩
        ⟨nodes.setIfInBounds opening
          ⟨.opening number, .free, false, none, [inner.entry], opening⟩, opening, opening⟩
      else place keeps body finish next nodes

/-! ## Groups that are one -/

/-- Groups that stand for others, by number, and the groups that are asked for. -/
structure Merged where
  names : List (Nat × Nat)
  asked : List Nat

def Merged.name (merged : Merged) (number : Nat) : Nat :=
  (merged.names.lookup number).getD number

/-- A group that is the whole body of another one stands for that one. -/
def merge (merged : Merged) : Pattern → Pattern × Merged
  | .nothing => (.nothing, merged)
  | .one copied set => (.one copied set, merged)
  | .edge copied condition => (.edge copied condition, merged)
  | .again copied number =>
      let name := merged.name number
      (.again copied name, { merged with asked := name :: merged.asked })
  | .sequence first second =>
      let (first, merged) := merge merged first
      let (second, merged) := merge merged second
      (.sequence first second, merged)
  | .either copied first second =>
      let (first, merged) := merge merged first
      let (second, merged) := merge merged second
      (.either copied first second, merged)
  | .star copied body =>
      let (body, merged) := merge merged body
      (.star copied body, merged)
  | .group number optional (.group inner _ body) =>
      let (body, merged) := merge
        ⟨(inner, merged.name number) :: merged.names, merged.asked.filter (· != inner)⟩ body
      (.group number optional body, merged)
  | .group number optional body =>
      let (body, merged) := merge merged body
      (.group number optional body, merged)

/-! ## Conditions that are carried on -/

/-- The nodes by number, of which some are copies. -/
abbrev Nodes :=
  Array Node

/-- A copy of a node that has to meet a further condition, and its number. -/
def copyNode (nodes : Nodes) (number : Nat) (condition : Condition) : Nodes × Nat :=
  match nodes[number]? with
  | none => (nodes, number)
  | some node =>
      (nodes.push { node with
        condition := condition.both node.condition
        copied := true
        next := none
        edges := []
        original := number }, nodes.size)

/-- The number of the copy of a node that has to meet just the condition, among the copies at
the end. -/
def findCopy? (nodes : Nodes) (number : Nat) (condition : Condition) : (last : Nat) → Option Nat
  | 0 => none
  | last + 1 =>
      match nodes[last + 1]? with
      | none => none
      | some node =>
          if !node.copied then none
          else if node.original = number ∧ node.condition = condition then some (last + 1)
          else findCopy? nodes number condition last

def change (nodes : Nodes) (number : Nat) (f : Node → Node) : Nodes :=
  nodes.modify number f

/-- Copy what follows a node without taking a byte behind its copy. -/
def carryOn (root : Nat) :
    (steps : Nat) → Nodes → (number copy : Nat) → Condition → Nodes
  | 0, nodes, _, _, _ => nodes
  | steps + 1, nodes, number, copy, condition =>
      match nodes[number]? with
      | none => nodes
      | some node =>
          match node.kind, node.edges with
          | .again _, _ =>
              let next := node.next.getD 0
              let (nodes, target) := copyNode nodes next condition
              carryOn root steps
                (change nodes copy ({ · with next := node.next, edges := [target] }))
                next target condition
          | _, [] => change nodes copy ({ · with next := node.next })
          | _, [next] =>
              if number = root ∧ copy ≠ number then
                change nodes copy ({ · with edges := [next] })
              else
                let condition := condition.both node.condition
                let (nodes, target) := copyNode nodes next condition
                carryOn root steps (change nodes copy ({ · with edges := [target] }))
                  next target condition
          | _, first :: second :: _ =>
              let (nodes, target) :=
                match findCopy? nodes first condition (nodes.size - 1) with
                | some target => (nodes, target)
                | none =>
                    let (nodes, target) := copyNode nodes first condition
                    (carryOn root steps (change nodes copy ({ · with edges := [target] }))
                      first target condition, target)
              let (nodes, other) := copyNode nodes second condition
              carryOn root steps
                (change nodes copy ({ · with edges := NodeSet.put target [other] }))
                second other condition

/-- More steps than the nodes of any expression need. -/
def manySteps : Nat :=
  1000000

/-- Carry on the conditions of a node and of those that it reaches, each once. -/
def visit : (steps : Nat) → Nodes × Array Bool → (number : Nat) → Nodes × Array Bool
  | 0, found, _ => found
  | steps + 1, (nodes, seen), number =>
      match nodes[number]? with
      | none => (nodes, seen)
      | some node =>
          if seen.getD number false then (nodes, seen)
          else
            let seen := (seen ++ Array.replicate (number + 1 - seen.size) false).setIfInBounds
              number true
            let leadsToCopy : Bool :=
              match node.edges with
              | [] => true
              | next :: _ => (nodes[next]?.map (·.copied)).getD true
            let nodes :=
              if !node.condition.isFree && !leadsToCopy then
                carryOn number manySteps nodes number number node.condition
              else nodes
            if node.kind.isFree then
              let edges := (nodes[number]?.map (·.edges)).getD []
              edges.foldl (visit steps) (nodes, seen)
            else (nodes, seen)

/-- Carry on the conditions of all nodes from a number on. -/
def visitAll : (steps : Nat) → (number : Nat) → Nodes × Array Bool → Nodes
  | 0, _, (nodes, _) => nodes
  | steps + 1, number, (nodes, seen) =>
      if number < nodes.size then
        visitAll steps (number + 1) (visit manySteps (nodes, seen) number)
      else nodes

/-- What is reached from a node without taking a byte, with what is reached already. -/
def reach (nodes : Nodes) : (steps : Nat) → NodeSet → (number : Nat) → NodeSet
  | 0, found, _ => found
  | steps + 1, found, number =>
      if found.has number then found
      else
        let found := NodeSet.put number found
        match nodes[number]? with
        | none => found
        | some node =>
            if node.kind.isFree then node.edges.foldl (reach nodes steps) found else found

end Automaton

structure Automaton where
  nodes : Array Automaton.Node
  /-- What each node reaches without taking a byte. -/
  reached : Array NodeSet
  /-- From where each node is reached without taking a byte. -/
  reaching : Array NodeSet
  entry : Nat
  /-- The nodes where a search starts. -/
  initial : NodeSet
  groups : Nat
  names : List (Nat × Nat)
  asked : List Nat
  /-- The pattern asks for what a group holds. -/
  asks : Bool
  /-- There is more than one way. -/
  forks : Bool
deriving Inhabited

namespace Automaton

def node (automaton : Automaton) (number : Nat) : Node :=
  automaton.nodes.getD number default

/-- What a node reaches without taking a byte. -/
def reachedFrom (automaton : Automaton) (number : Nat) : NodeSet :=
  automaton.reached.getD number []

/-- From where a node is reached without taking a byte. -/
def reachingTo (automaton : Automaton) (number : Nat) : NodeSet :=
  automaton.reaching.getD number []

def firstEdge (automaton : Automaton) (number : Nat) : Nat :=
  (automaton.node number).edges.headD 0

/-- Add what follows the nodes that ask for a group that is empty at the start, from the given
place in the set on. -/
def addEmptyGroups (automaton : Automaton) :
    (steps : Nat) → (place : Nat) → NodeSet → NodeSet
  | 0, _, set => set
  | steps + 1, place, set =>
      match set[place]? with
      | none => set
      | some number =>
          match (automaton.node number).kind with
          | .again group =>
              let isClosed := set.any fun other =>
                match (automaton.node other).kind with
                | .closing closed _ => closed == group
                | _ => false
              let next := automaton.firstEdge number
              if isClosed && !set.has next then
                addEmptyGroups automaton steps 1 (NodeSet.union set (automaton.reachedFrom next))
              else addEmptyGroups automaton steps (place + 1) set
          | _ => addEmptyGroups automaton steps (place + 1) set

/-- The automaton of a pattern with so many groups. `bare` says that nobody asks what the
groups hold. -/
def ofPattern (pattern : Pattern) (groups : Nat) (asked : List Nat) (bare : Bool) :
    Automaton :=
  let (pattern, merged) := merge ⟨[], asked⟩ pattern
  let keeps (number : Nat) : Bool := !bare || merged.asked.contains number
  let count := nodeCount keeps pattern
  let finish : Node := ⟨.finish, .free, false, none, [], count⟩
  let placed := place keeps pattern count count (Array.replicate (count + 1) finish)
  let forks := placed.nodes.any (·.kind == .fork)
  let nodes := visitAll manySteps 0 (placed.nodes, #[])
  let reached := (Array.range nodes.size).map fun number =>
    reach nodes manySteps [] number
  let reaching := (List.range nodes.size).foldl (fun reaching number =>
    (reached.getD number []).foldl (fun reaching target =>
      reaching.modify target (number :: ·)) reaching) (Array.replicate nodes.size [])
  let automaton : Automaton :=
    { nodes, reached, reaching := reaching.map List.reverse, entry := placed.entry
      initial := reached.getD placed.entry [], groups, names := merged.names
      asked := merged.asked, asks := !asked.isEmpty, forks }
  if automaton.asks then
    { automaton with initial := automaton.addEmptyGroups manySteps 0 automaton.initial }
  else automaton

end Automaton

end TypeStub.Tool
