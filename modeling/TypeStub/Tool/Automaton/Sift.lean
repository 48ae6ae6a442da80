import TypeStub.Tool.Automaton.Search

/-!
Contract: the nodes that lie on a way to the end.

Owns:
- `Automaton.sift?`, the states of a run without the nodes from which its end is not reached.

A reference counts only if what its group held is what the way to the reference gives it: on
the way back from a reference the places where its group starts and ends are fixed.
-/

namespace TypeStub.Tool.Automaton

structure Sifting where
  /-- The nodes at each place from which the end is reached. -/
  states : Array (Option State)
  viaReferences : Array (Option State)
  references : Array Reference
deriving Inhabited

/-- Where ways have to end, and the references whose groups are fixed, by number. -/
structure Goal where
  node : Nat
  place : Nat
  fixed : NodeSet

def nodesAt (states : Array (Option State)) (place : Nat) : NodeSet :=
  ((stateAt states place).map (·.nodes)).getD []

/-- The state of some nodes at no place in particular. -/
def plain? (automaton : Automaton) (nodes : NodeSet) : Option State :=
  if nodes.isEmpty then none else some (State.plain automaton nodes)

/-! ## Fixed groups -/

/-- On which side of a group a node is: before it, inside of it or behind it. -/
inductive Side where
  | before
  | inside
  | behind
deriving DecidableEq, Repr, Inhabited

/-- The side of a group that a node at an end of the group is on, with the references that are
known to have no mark behind them. -/
def sideAtEnd (automaton : Automaton) (atStart atEnd : Bool) (group : Nat)
    (first : Option Nat) : (steps : Nat) → (node : Nat) → Array Reference → Side × Array Reference
  | 0, _, references => (if atEnd then .behind else .inside, references)
  | steps + 1, node, references =>
      let (found, references) := (automaton.reachedFrom node).foldl
        (fun (found, references) number =>
          if found.isSome then (found, references)
          else
            match (automaton.node number).kind with
            | .again _ =>
                match first with
                | none => (none, references)
                | some first =>
                    let place := (references[first]?.map (·.place)).getD 0
                    let candidates := ((List.range references.size).drop first).takeWhile
                      fun index => (references[index]?.map (·.place)) == some place
                    candidates.foldl (fun (found, references) index =>
                      match found, references[index]? with
                      | none, some reference =>
                          if reference.node ≠ number ∨ reference.length ≠ 0 ∨
                              reference.silent.contains group then (none, references)
                          else
                            let next := automaton.firstEdge number
                            if next = node then
                              (some (if atStart then Side.before else .inside), references)
                            else
                              let (side, references) :=
                                sideAtEnd automaton atStart atEnd group (some first) steps next
                                  references
                              if side = .before then (some .before, references)
                              else if side = .inside ∧ atEnd then (some .inside, references)
                              else
                                (none, references.modify index fun reference =>
                                  { reference with silent := group :: reference.silent })
                      | _, _ => (found, references)) (none, references)
            | .opening other =>
                (if atStart && other == group then some .before else none, references)
            | .closing other _ =>
                (if atEnd && other == group then some .inside else none, references)
            | _ => (none, references)) ((none : Option Side), references)
      (found.getD (if atEnd then .behind else .inside), references)

def sideOf (automaton : Automaton) (fixed : Reference) (group node place : Nat)
    (references : Array Reference) : Side × Array Reference :=
  if place < fixed.start then (.before, references)
  else if fixed.finish < place then (.behind, references)
  else
    let atStart : Bool := place == fixed.start
    let atEnd : Bool := place == fixed.finish
    if !atStart && !atEnd then (.inside, references)
    else
      sideAtEnd automaton atStart atEnd group (firstReference? references place) manySteps node
        references

def groupOf (automaton : Automaton) (reference : Reference) : Nat :=
  match (automaton.node reference.node).kind with
  | .again group => group
  | _ => 0

/-- A way between two nodes crosses an end of a fixed group. -/
def crosses (automaton : Automaton) (fixed : NodeSet) (node place node' place' : Nat)
    (references : Array Reference) : Bool × Array Reference :=
  fixed.foldl (fun (found, references) index =>
    match found, references[index]? with
    | false, some reference =>
        let group := groupOf automaton reference
        let (side, references) := sideOf automaton reference group node place references
        let (side', references) := sideOf automaton reference group node' place' references
        (side != side', references)
    | _, _ => (found, references)) (false, references)

/-- Take a node and those that lead only to it out of a set. -/
def without (automaton : Automaton) (node : Nat) (candidates nodes : NodeSet) : NodeSet :=
  let sources := automaton.reachingTo node
  let kept := sources.foldl (fun kept source =>
    if source ≠ node ∧ (automaton.node source).kind.isFree ∧
        (automaton.node source).edges.any fun next => !sources.has next && nodes.has next then
      NodeSet.union kept (NodeSet.common candidates (automaton.reachingTo source))
    else kept) []
  nodes.filter fun number => kept.has number || !sources.has number

/-- Take out the nodes that have no way to the end of a group, from the given place in the set
on. -/
def withoutStrangers (automaton : Automaton) (closing : Nat) (candidates : NodeSet) :
    (steps : Nat) → (index : Nat) → NodeSet → NodeSet
  | 0, _, nodes => nodes
  | steps + 1, index, nodes =>
      match nodes[index]? with
      | none => nodes
      | some number =>
          if !(automaton.reachingTo number).has closing &&
              !(automaton.reachedFrom number).has closing then
            withoutStrangers automaton closing candidates steps index
              (without automaton number candidates nodes)
          else withoutStrangers automaton closing candidates steps (index + 1) nodes

/-- Take out the marks of a group, from the given place in the set on. -/
def withoutMarks (automaton : Automaton) (group : Nat) (candidates : NodeSet) :
    (steps : Nat) → (index : Nat) → NodeSet → NodeSet
  | 0, _, nodes => nodes
  | steps + 1, index, nodes =>
      match nodes[index]? with
      | none => nodes
      | some number =>
          let isGroupMark : Bool :=
            isMark automaton true group number || isMark automaton false group number
          withoutMarks automaton group candidates steps (index + 1)
            (if isGroupMark then without automaton number candidates nodes else nodes)

/-- The nodes at a place that do not contradict the fixed groups. -/
def withFixed (automaton : Automaton) (references : Array Reference) (fixed : NodeSet)
    (place : Nat) (candidates nodes : NodeSet) : NodeSet :=
  fixed.foldl (fun nodes index =>
    match references[index]? with
    | none => nodes
    | some reference =>
        if place ≤ reference.start ∨ reference.place < place then nodes
        else
          let group := groupOf automaton reference
          if reference.finish = place then
            let opening := (nodes.filter (isMark automaton false group)).getLast?
            let closing := (nodes.filter (isMark automaton true group)).getLast?
            let nodes := match opening with
              | none => nodes
              | some opening => without automaton opening candidates nodes
            match closing with
            | none => nodes
            | some closing =>
                withoutStrangers automaton closing candidates (2 * nodes.length + 2) 0 nodes
          else withoutMarks automaton group candidates (nodes.length + 1) 0 nodes) nodes

/-! ## The way back -/

/-- Put a reference number into a goal. -/
def Goal.fixing (goal : Goal) (index node place : Nat) : Goal :=
  ⟨node, place, NodeSet.put index goal.fixed⟩

def mergeStates (automaton : Automaton) (states others : Array (Option State)) (count : Nat) :
    Array (Option State) :=
  (List.range count).foldl (fun states place =>
    match stateAt states place, stateAt others place with
    | none, other => putState states place other
    | _, none => states
    | some state, some other =>
        putState states place (plain? automaton (NodeSet.union state.nodes other.nodes))) states

/-- Sift the states from a place down, where some nodes take a byte on a way to the goal. -/
def siftFrom (automaton : Automaton) (text : SearchText) (progress : Progress) :
    (steps : Nat) → Goal → Sifting → Sifting
  | 0, _, sifting => sifting
  | steps + 1, goal, sifting =>
      let update (place : Nat) (nodes : NodeSet) (sifting : Sifting) : Sifting :=
        let known := stateAt progress.log place
        let candidates := (known.map (·.nodes)).getD []
        let nodes :=
          if nodes.isEmpty || known.isNone then nodes
          else
            let sources := nodes.foldl (fun sources number =>
              NodeSet.union sources (automaton.reachingTo number)) []
            let nodes := NodeSet.union nodes (NodeSet.common candidates sources)
            if goal.fixed.isEmpty then nodes
            else withFixed automaton sifting.references goal.fixed place candidates nodes
        let sifting :=
          { sifting with states := putState sifting.states place (plain? automaton nodes) }
        match known.any (·.asks), firstReference? sifting.references place with
        | true, some first =>
            let asking := candidates.filter fun number =>
              (match (automaton.node number).kind with
                | .again _ => true
                | _ => false) && !(number == goal.node && place == goal.place)
            let indexes := ((List.range sifting.references.size).drop first).takeWhile
              fun index => (sifting.references[index]?.map (·.place)) == some place
            asking.foldl (fun sifting number => indexes.foldl (fun sifting index =>
              match sifting.references[index]? with
              | none => sifting
              | some reference =>
                  let next :=
                    if reference.length = 0 then automaton.firstEdge number
                    else (automaton.node number).next.getD 0
                  if reference.node ≠ number ∨ goal.place < reference.target ∨
                      !(nodesAt sifting.states reference.target).has next then sifting
                  else
                    let (isCrossing, references) :=
                      crosses automaton goal.fixed number place next reference.target
                        sifting.references
                    let sifting := { sifting with references }
                    if isCrossing then sifting
                    else
                      let here := stateAt sifting.states place
                      let sifting := siftFrom automaton text progress steps
                        (goal.fixing index number place) sifting
                      { sifting with
                        viaReferences := mergeStates automaton sifting.viaReferences
                          sifting.states (place + 1)
                        states := putState sifting.states place here }) sifting) sifting
        | _, _ => sifting
      let sifting := update goal.place [goal.node] sifting
      let (sifting, _, _) := (List.range goal.place).reverse.foldl
        (fun (sifting, blank, isOver) place =>
          if isOver then (sifting, blank, true)
          else
            let blank := if (stateAt sifting.states (place + 1)).isNone then blank + 1 else 0
            if progress.longest < blank then
              ({ sifting with
                states := (List.range (place + 1)).foldl (fun states place =>
                  putState states place none) sifting.states }, blank, true)
            else
              let behind := nodesAt sifting.states (place + 1)
              let takers := ((stateAt progress.log place).map (·.takers)).getD []
              let (nodes, sifting) := takers.foldl (fun (nodes, sifting) number =>
                let next := (automaton.node number).next.getD 0
                if takesAt automaton text number place && behind.has next then
                  let (isCrossing, references) :=
                    crosses automaton goal.fixed next (place + 1) number place
                      sifting.references
                  (if isCrossing then nodes else NodeSet.put number nodes,
                    { sifting with references })
                else (nodes, sifting)) (([] : NodeSet), sifting)
              (update place nodes sifting, blank, false)) (sifting, 0, false)
      sifting

/-- The end of an occurrence and its states, without the nodes from which it is not reached. -/
structure Sifted where
  finish : Nat
  node : Nat
  states : Array (Option State)

/-- More levels than references that take nothing can follow each other. -/
def manyLevels : Nat :=
  1000

/-- Sift the states of a run that ends at a place. If no way leads to the end, an earlier end
counts. -/
def sift? (automaton : Automaton) (text : SearchText) (progress : Progress) :
    (finish : Nat) → Option Sifted
  | 0 => siftTo 0
  | finish + 1 => match siftTo (finish + 1) with
      | some sifted => some sifted
      | none => if automaton.asks then sift? automaton text progress finish else none
where
  siftTo (finish : Nat) : Option Sifted := do
    let state ← stateAt progress.log finish
    let node ← if state.finishes then some ((state.end? automaton (text.after finish)).getD 0)
      else none
    let sifting := siftFrom automaton text progress manyLevels ⟨node, finish, []⟩
      ⟨#[], #[], progress.references⟩
    if (stateAt sifting.states 0).isNone && (stateAt sifting.viaReferences 0).isNone then none
    else
      let states :=
        if automaton.asks then
          mergeStates automaton sifting.states sifting.viaReferences (finish + 1)
        else sifting.states
      return ⟨finish, node, states⟩

end TypeStub.Tool.Automaton
