import TypeStub.Tool.Automaton.State

/-!
Contract: what groups hold while an automaton runs.

Owns:
- `Automaton.Progress`, the states behind each byte with the groups that were begun;
- `Automaton.follow`, which goes on behind the nodes that ask for a group.

For a node that asks for a group each beginning and each end of the group on the way is tried:
the end has to be reached from the beginning, and the node from the end.
-/

namespace TypeStub.Tool.Automaton

/-- The states at the places on a way, of which those before `next` are known. -/
structure Path where
  states : Array (Option State)
  next : Nat
deriving Inhabited

def Path.none : Path :=
  ⟨#[], 0⟩

def stateAt (states : Array (Option State)) (place : Nat) : Option State :=
  states.getD place Option.none

def putState (states : Array (Option State)) (place : Nat) (state : Option State) :
    Array (Option State) :=
  (states ++ Array.replicate (place + 1 - states.size) Option.none).setIfInBounds place state

structure GroupEnd where
  node : Nat
  place : Nat
  path : Path
deriving Inhabited

/-- A beginning of a group with its ends and the way to them. -/
structure GroupStart where
  node : Nat
  place : Nat
  path : Path
  ends : Array GroupEnd
deriving Inhabited

/-- At a place a node takes what a group holds, which is the text between two places. -/
structure Reference where
  node : Nat
  place : Nat
  start : Nat
  finish : Nat
  /-- The groups of which no mark is behind the node. -/
  silent : List Nat
deriving Inhabited

namespace Reference

/-- How many bytes are taken. -/
def length (reference : Reference) : Nat :=
  reference.finish - reference.start

def target (reference : Reference) : Nat :=
  reference.place + reference.length

end Reference

/-- What is known while an automaton runs. -/
structure Progress where
  log : Array (Option State)
  /-- The last place that the log has. -/
  top : Nat
  references : Array Reference
  starts : Array GroupStart
  /-- The most bytes that a node that asks for a group takes. -/
  longest : Nat
deriving Inhabited

namespace Progress

def none : Progress :=
  ⟨#[], 0, #[], #[], 0⟩

/-- The log reaches a place at least. -/
def extended (progress : Progress) (place : Nat) : Progress :=
  { progress with top := max progress.top place }

/-- Remember which groups that are asked for begin at a place. -/
def withStarts (automaton : Automaton) (nodes : NodeSet) (place : Nat) (progress : Progress) :
    Progress :=
  let begins (number : Nat) : Bool :=
    match (automaton.node number).kind with
    | .opening group => automaton.asked.contains group
    | _ => false
  { progress with
    starts := (nodes.filter begins).foldl (fun starts number =>
      starts.push ⟨number, place, .none, #[]⟩) progress.starts }

end Progress

/-! ## Ways that leave a group out -/

/-- The node is a mark of the group, its end or its beginning. -/
def isMark (automaton : Automaton) (isEnd : Bool) (group number : Nat) : Bool :=
  match (automaton.node number).kind with
  | .opening other => !isEnd && other == group
  | .closing other _ => isEnd && other == group
  | _ => false

/-- What a node reaches without taking a byte and without going past a mark. -/
def reachPast (automaton : Automaton) (isEnd : Bool) (group : Nat) :
    (steps : Nat) → NodeSet → (number : Nat) → NodeSet
  | 0, found, _ => found
  | steps + 1, found, number =>
      if found.has number then found
      else if isMark automaton isEnd group number then
        if isEnd then found.put number else found
      else
        let found := found.put number
        match (automaton.node number).edges with
        | [] => found
        | [next] => reachPast automaton isEnd group steps found next
        | first :: second :: _ =>
            reachPast automaton isEnd group steps
              (reachPast automaton isEnd group steps found second) first

/-- What nodes reach without taking a byte and without going past a mark. -/
def reachAllPast (automaton : Automaton) (isEnd : Bool) (group : Nat) (nodes : NodeSet) :
    NodeSet :=
  nodes.foldl (fun found number =>
    let reached := automaton.reachedFrom number
    if reached.any (isMark automaton isEnd group) then
      reachPast automaton isEnd group manySteps found number
    else NodeSet.union found reached) []

def firstReference? (references : Array Reference) (place : Nat) : Option Nat :=
  references.findIdx? (·.place == place)

/-- Add what follows the references at a place, from the one with the given number on: nodes
here if it takes nothing, and else nodes at a later place. -/
def withReferences (automaton : Automaton) (references : Array Reference) (isEnd : Bool)
    (group place first : Nat) :
    (steps : Nat) → (number : Nat) → NodeSet → Array (Option State) →
      NodeSet × Array (Option State)
  | 0, _, nodes, states => (nodes, states)
  | steps + 1, number, nodes, states =>
      match references[number]? with
      | none => (nodes, states)
      | some reference =>
          if reference.place ≠ place then (nodes, states)
          else
            let go := withReferences automaton references isEnd group place first steps
            if !nodes.has reference.node then go (number + 1) nodes states
            else if reference.target = place then
              let next := automaton.firstEdge reference.node
              if nodes.has next then go (number + 1) nodes states
              else
                go first (NodeSet.union nodes (reachAllPast automaton isEnd group [next])) states
            else
              let next := (automaton.node reference.node).next.getD 0
              match stateAt states reference.target with
              | none =>
                  go (number + 1) nodes
                    (putState states reference.target (some (.plain automaton [next])))
              | some state =>
                  if state.nodes.has next then go (number + 1) nodes states
                  else
                    go (number + 1) nodes
                      (putState states reference.target
                        (some (.plain automaton (NodeSet.put next state.nodes))))

def withAllReferences (automaton : Automaton) (references : Array Reference) (isEnd : Bool)
    (group place : Nat) (nodes : NodeSet) (states : Array (Option State)) :
    NodeSet × Array (Option State) :=
  match firstReference? references place with
  | none => (nodes, states)
  | some first =>
      withReferences automaton references isEnd group place first manySteps first nodes states

/-- Go on along a way to a later place. Too many places without a node end it. -/
def extendPath (automaton : Automaton) (text : SearchText) (references : Array Reference)
    (longest : Nat) (isEnd : Bool) (group : Nat) :
    (steps : Nat) → (blank : Nat) → Option State → Path → Path
  | 0, _, _, path => path
  | steps + 1, blank, state, path =>
      if longest < blank then path
      else
        let place := path.next
        let known := ((stateAt path.states (place + 1)).map (·.nodes)).getD []
        let nodes := ((state.map (·.takers)).getD []).foldl (fun nodes number =>
          if takesAt automaton text number place then
            NodeSet.put ((automaton.node number).next.getD 0) nodes
          else nodes) known
        let (nodes, states) :=
          if nodes.isEmpty then (nodes, path.states)
          else
            withAllReferences automaton references isEnd group (place + 1)
              (reachAllPast automaton isEnd group nodes) path.states
        let state := State.entering? automaton nodes (text.before (place + 1))
        extendPath automaton text references longest isEnd group steps
          (if state.isNone then blank + 1 else 0) state
          ⟨putState states (place + 1) state, place + 1⟩

/-- Whether a node at a place is reached from an earlier one without going past a mark of its
group, and the way. -/
def arrive (automaton : Automaton) (text : SearchText) (progress : Progress) (isEnd : Bool)
    (path : Path) (origin place target last : Nat) : Path × Bool :=
  let group := match (automaton.node origin).kind with
    | .opening group | .closing group _ | .again group => group
    | _ => 0
  let here := if path.next = 0 then place else path.next
  let known := if here = place then Option.none else stateAt path.states here
  let (state, states) :=
    if here = place ∨ known.any (·.asks) then
      let nodes :=
        if here = place then reachAllPast automaton isEnd group [origin]
        else (known.map (·.nodes)).getD []
      let (nodes, states) :=
        if nodes.isEmpty then (nodes, path.states)
        else
          withAllReferences automaton progress.references isEnd group here nodes path.states
      let state := State.entering? automaton nodes (text.before here)
      (state, putState states here state)
    else (known, path.states)
  let path := extendPath automaton text progress.references progress.longest isEnd group
    (last - here) 0 state ⟨states, here⟩
  (path, (stateAt path.states last).any (·.nodes.has target))

/-! ## Ends of groups -/

def Progress.changeStart (progress : Progress) (number : Nat) (f : GroupStart → GroupStart) :
    Progress :=
  { progress with starts := progress.starts.modify number f }

/-- If a node at a place is reached from an end of a group, it takes what the group holds. -/
def referTo (automaton : Automaton) (text : SearchText) (node place start finish : Nat)
    (progress : Progress) : Progress :=
  match progress.starts[start]? with
  | none => progress
  | some begun =>
      match begun.ends[finish]? with
      | none => progress
      | some ended =>
          let (path, arrives) :=
            arrive automaton text progress false ended.path ended.node ended.place node place
          let progress := progress.changeStart start fun begun =>
            { begun with ends := begun.ends.modify finish ({ · with path }) }
          if !arrives then progress
          else
            let reference : Reference := ⟨node, place, begun.place, ended.place, []⟩
            { progress with
              references := progress.references.push reference
              longest := max progress.longest reference.length }.extended reference.target

/-- Try the ends of a group that are known, from one of them on, where the text of the group
up to `reached` stands again before `other`. Afterwards no more ends have to be looked for if
the text differs. -/
def referToKnown (automaton : Automaton) (text : SearchText) (node place start : Nat) :
    (steps : Nat) → (finish reached other : Nat) → Progress → Progress × Option (Nat × Nat)
  | 0, _, reached, other, progress => (progress, some (reached, other))
  | steps + 1, finish, reached, other, progress =>
      match (progress.starts[start]?).bind (·.ends[finish]?) with
      | none => (progress, some (reached, other))
      | some ended =>
          let length := ended.place - reached
          if text.size < other + length || !text.agrees other reached length then
            (progress, none)
          else
            referToKnown automaton text node place start steps (finish + 1) (reached + length)
              (other + length) (referTo automaton text node place start finish progress)

/-- Look for further ends of a group, at a place and behind it. -/
def referToFurther (automaton : Automaton) (text : SearchText) (node place start group : Nat) :
    (steps : Nat) → (reached other : Nat) → Progress → Progress
  | 0, _, _, progress => progress
  | steps + 1, reached, other, progress =>
      match progress.starts[start]? with
      | none => progress
      | some begun =>
          let goesOn : Bool := reached == begun.place || (text.agrees other (reached - 1) 1)
          if place < reached || !goesOn then progress
          else
            let other := if reached = begun.place then other else other + 1
            let go := referToFurther automaton text node place start group steps (reached + 1)
              other
            match (stateAt progress.log reached).bind fun state =>
              state.nodes.find? (isMark automaton true group) with
            | none => go progress
            | some closing =>
                let (path, arrives) :=
                  arrive automaton text progress true begun.path begun.node begun.place closing
                    reached
                let progress := progress.changeStart start ({ · with path })
                if !arrives then go progress
                else
                  let progress := progress.changeStart start fun begun =>
                    { begun with ends := begun.ends.push ⟨closing, reached, .none⟩ }
                  go (referTo automaton text node place start begun.ends.size progress)

/-- Find all that a node can take at a place. -/
def refer (automaton : Automaton) (text : SearchText) (node place : Nat) (progress : Progress) :
    Progress :=
  let isDone : Bool :=
    progress.references.any fun reference => reference.place == place && reference.node == node
  match isDone, (automaton.node node).kind with
  | false, .again group =>
      (List.range progress.starts.size).foldl (fun progress start =>
        match progress.starts[start]? with
        | none => progress
        | some begun =>
            if (automaton.node begun.node).kind != .opening group then progress
            else
              let (progress, goesOn) :=
                referToKnown automaton text node place start begun.ends.size 0 begun.place place
                  progress
              match goesOn with
              | none => progress
              | some (reached, other) =>
                  let reached := if begun.ends.isEmpty then reached else reached + 1
                  referToFurther automaton text node place start group (place + 1) reached other
                    progress) progress
  | _, _ => progress

/-! ## Going on -/

/-- Go on behind the nodes at a place that ask for a group. -/
def follow (automaton : Automaton) (text : SearchText) (place : Nat) :
    (steps : Nat) → NodeSet → Progress → Progress
  | 0, _, progress => progress
  | steps + 1, nodes, progress =>
      nodes.foldl (fun progress number =>
        let node := automaton.node number
        let asks : Bool := match node.kind with
          | .again _ => true
          | _ => false
        if !asks || !node.condition.allowsAfter (text.after place) then progress
        else
          let first := progress.references.size
          let progress := refer automaton text number place progress
          let behind (progress : Progress) (reference : Reference) : Progress :=
            if reference.node ≠ number ∨ reference.place ≠ place then progress
            else
              let isEmpty : Bool := reference.length == 0
              let reached :=
                automaton.reachedFrom
                  (if isEmpty then automaton.firstEdge number else node.next.getD 0)
              let target := reference.target
              let count (progress : Progress) : Nat :=
                ((stateAt progress.log place).map (·.nodes.length)).getD 0
              let before := count progress
              let entered := match stateAt progress.log target with
                | none => reached
                | some state => NodeSet.union state.entered reached
              let state := State.entering? automaton entered (text.before target)
              let progress := { progress with log := putState progress.log target state }
              if isEmpty && before < count progress then
                follow automaton text place steps reached
                  (progress.withStarts automaton reached place)
              else progress
          (progress.references.toList.drop first).foldl behind progress) progress

end TypeStub.Tool.Automaton
