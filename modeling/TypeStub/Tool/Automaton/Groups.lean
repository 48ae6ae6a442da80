import TypeStub.Tool.Automaton.Sift

/-!
Contract: what the groups hold in an occurrence.

Owns:
- `Automaton.Held`, the places between which a group holds its text;
- `Automaton.trace?`, the walk over the states of a run that fills the groups.

The walk takes the first way that stays inside of the states. If groups are asked for it comes
back to the ways that it left out as soon as one fails.
-/

namespace TypeStub.Tool.Automaton

/-- The places between which a group holds its text. -/
structure Held where
  start : Option Nat
  finish : Option Nat
deriving DecidableEq, Repr, Inhabited

/-- A group that holds nothing. -/
def Held.none : Held :=
  ⟨Option.none, Option.none⟩

/-- What the groups hold, behind the whole occurrence. -/
abbrev Registers :=
  Array Held

structure Postponed where
  place : Nat
  node : Nat
  held : Registers
  lasting : Registers
  passed : NodeSet

/-- A walk over the states of a run. -/
structure Walk where
  place : Nat
  held : Registers
  /-- What the groups held when one of them last ended with some text. -/
  lasting : Registers
  /-- The nodes that were passed since the last byte. -/
  passed : NodeSet
  postponed : List Postponed

namespace Walk

def record (automaton : Automaton) (node : Nat) (walk : Walk) : Walk :=
  match (automaton.node node).kind with
  | .opening group =>
      { walk with
        held := walk.held.setIfInBounds (group + 1) ⟨some walk.place, Option.none⟩ }
  | .closing group optional =>
      match walk.held[group + 1]? with
      | none => walk
      | some held =>
          let closed := walk.held.setIfInBounds (group + 1) ⟨held.start, some walk.place⟩
          if held.start.all (· < walk.place) then { walk with held := closed, lasting := closed }
          else if optional && (walk.lasting[group + 1]?.bind (·.start)).isSome then
            { walk with held := walk.lasting }
          else { walk with held := closed }
  | _ => walk

/-- Come back to the last way that was left out. -/
def back? (walk : Walk) : Option (Nat × Walk) :=
  match walk.postponed with
  | [] => none
  | way :: postponed =>
      some (way.node, ⟨way.place, way.held, way.lasting, way.passed, postponed⟩)

/-- Go on behind a node that is left without taking a byte. -/
def pass? (automaton : Automaton) (states : Array (Option State)) (comesBack : Bool) (node : Nat)
    (walk : Walk) : Option (Nat × Walk) :=
  let here := nodesAt states walk.place
  let walk := { walk with passed := NodeSet.put node walk.passed }
  match (automaton.node node).edges.filter here.has with
  | [] => none
  | [next] => some (next, walk)
  | first :: second :: _ =>
      if walk.passed.has first then some (second, walk)
      else if comesBack then
        some (first, { walk with
          postponed :=
            ⟨walk.place, second, walk.held, walk.lasting, walk.passed⟩ :: walk.postponed })
      else some (first, walk)

/-- Go on behind a node that takes so many bytes. -/
def take? (automaton : Automaton) (states : Array (Option State)) (comesBack : Bool)
    (finish node length : Nat) (walk : Walk) : Option (Nat × Walk) :=
  let next := (automaton.node node).next.getD 0
  let place := walk.place + length
  if comesBack && (finish < place || !(nodesAt states place).has next) then none
  else some (next, { walk with place, passed := [] })

def proceed? (automaton : Automaton) (text : SearchText) (states : Array (Option State))
    (comesBack : Bool) (finish node : Nat) (walk : Walk) : Option (Nat × Walk) :=
  match (automaton.node node).kind with
  | .again group =>
      let held := walk.held.getD (group + 1) Held.none
      match held.start, held.finish with
      | some start, some last =>
          let length := last - start
          if comesBack && !text.agrees start walk.place length then none
          else if length = 0 then emptyGroup walk
          else take? automaton states comesBack finish node length walk
      | _, _ => if comesBack then none else emptyGroup walk
  | .one _ =>
      if takesAt automaton text node walk.place then
        take? automaton states comesBack finish node 1 walk
      else none
  | .finish => none
  | _ => pass? automaton states comesBack node walk
where
  /-- Go on behind a node that takes the text of an empty group. -/
  emptyGroup (walk : Walk) : Option (Nat × Walk) :=
    let next := automaton.firstEdge node
    if (nodesAt states walk.place).has next then
      some (next, { walk with passed := NodeSet.put node walk.passed })
    else none

def toEnd? (automaton : Automaton) (text : SearchText) (states : Array (Option State))
    (comesBack : Bool) (finish last : Nat) :
    (steps : Nat) → (node : Nat) → Walk → Option Registers
  | 0, _, _ => none
  | steps + 1, node, walk =>
      if finish < walk.place then some walk.held
      else
        let walk := walk.record automaton node
        let isOver : Bool :=
          (walk.place == finish && node == last) || (comesBack && walk.passed.has node)
        let isOpen : Bool := walk.held.any fun held => held.start.isSome && held.finish.isNone
        let found :=
          if isOver then
            if comesBack && isOpen then walk.back? else none
          else some (node, walk)
        match found with
        | none => some walk.held
        | some (node, walk) =>
            match walk.proceed? automaton text states comesBack finish node with
            | some (node, walk) => toEnd? automaton text states comesBack finish last steps node walk
            | none =>
                match walk.back? with
                | some (node, walk) =>
                    toEnd? automaton text states comesBack finish last steps node walk
                | none => none

end Walk

/-- More nodes than a walk goes over. -/
def manyNodes : Nat :=
  100000000

/-- What the groups hold, behind the whole occurrence. -/
def trace? (automaton : Automaton) (text : SearchText) (states : Array (Option State))
    (finish last : Nat) : Option Registers :=
  let held := (Array.replicate (automaton.groups + 1) Held.none).setIfInBounds 0
    ⟨some 0, some finish⟩
  let comesBack := automaton.forks && automaton.asks
  Walk.toEnd? automaton text states comesBack finish last manyNodes automaton.entry
    ⟨0, held, held, [], []⟩

end TypeStub.Tool.Automaton
