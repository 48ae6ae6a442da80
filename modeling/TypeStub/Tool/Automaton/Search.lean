import TypeStub.Tool.Automaton.Reference

/-!
Contract: the longest occurrence at a place.

Owns:
- `Automaton.longest`, the last place where an occurrence that starts at the origin can end;
- `Automaton.Reached`, what is known after the run.
-/

namespace TypeStub.Tool.Automaton

/-- What a run from the origin leads to. -/
structure Reached where
  /-- The last place where an occurrence can end. -/
  finish : Option Nat
  progress : Progress
  /-- So many bytes behind the origin lead back to where the search starts, so that no
  occurrence starts there either. -/
  idle : Nat

structure Demand where
  /-- The last end counts, and not the first one. -/
  longest : Bool
  logs : Bool

/-- The state at a place as the log has it together with the one that a byte leads to. -/
def join (automaton : Automaton) (text : SearchText) (place : Nat) (state : Option State)
    (progress : Progress) : Option State × Progress :=
  let joined := match stateAt progress.log place with
    | none => state
    | some known =>
        match state with
        | none => State.entering? automaton known.entered (text.before place)
        | some state =>
            State.entering? automaton (NodeSet.union state.entered known.entered) (text.before place)
  let progress :=
    { progress with log := putState progress.log place joined }.extended place
  match joined with
  | none => (none, progress)
  | some state =>
      if !automaton.asks then (joined, progress)
      else
        let progress := progress.withStarts automaton state.nodes place
        if state.asks then
          let progress := follow automaton text place manySteps state.nodes progress
          (stateAt progress.log place, progress)
        else (joined, progress)

/-- The first place behind the given one to which the log leads although no byte does. -/
def recover (automaton : Automaton) (text : SearchText) :
    (steps : Nat) → (place : Nat) → Progress → Option (Nat × State) × Progress
  | 0, _, progress => (none, progress)
  | steps + 1, place, progress =>
      if progress.top ≤ place then (none, progress)
      else
        let place := place + 1
        match stateAt progress.log place with
        | none => recover automaton text steps place progress
        | some _ =>
            match join automaton text place none progress with
            | (some state, progress) => (some (place, state), progress)
            | (none, progress) => recover automaton text steps place progress

def endsAt (automaton : Automaton) (text : SearchText) (state : State) (place : Nat) : Bool :=
  state.finishes &&
    (!state.conditional || (state.end? automaton (text.after place)).isSome)

/-- Go on from a place. `idle` counts the bytes that led back to the start, as long as no
other did. -/
def run (automaton : Automaton) (text : SearchText) (demand : Demand) :
    (steps : Nat) → (place : Nat) → State → (isIdle : Bool) → Reached → Reached
  | 0, _, _, _, reached => reached
  | steps + 1, place, state, isIdle, reached =>
      match text.byte? place with
      | none => reached
      | some c =>
          let next := state.step? automaton c
          let (next, progress) :=
            if demand.logs then join automaton text (place + 1) next reached.progress
            else (next, reached.progress)
          let (found, progress) :=
            match next with
            | some next => (some (place + 1, next), progress)
            | none =>
                if demand.logs && (demand.longest || reached.finish.isNone) then
                  recover automaton text (text.size + 1) (place + 1) progress
                else (none, progress)
          let reached := { reached with progress }
          match found with
          | none => reached
          | some (place, next) =>
              let isIdle := isIdle && state.agrees next
              let reached := if isIdle then { reached with idle := place } else reached
              if endsAt automaton text next place then
                let reached := { reached with finish := some place, idle := 0 }
                if demand.longest then
                  run automaton text demand steps place next false reached
                else reached
              else run automaton text demand steps place next isIdle reached

def longest (automaton : Automaton) (text : SearchText) (demand : Demand) : Reached :=
  let state := start automaton text
  let progress :=
    if demand.logs then { Progress.none with log := #[some state] } else Progress.none
  let progress :=
    if demand.logs && automaton.asks then
      let progress := progress.withStarts automaton state.nodes 0
      if state.asks then follow automaton text 0 manySteps state.nodes progress else progress
    else progress
  let ends := endsAt automaton text state 0
  let reached : Reached := ⟨if ends then some 0 else none, progress, 0⟩
  if ends && !demand.longest then reached
  else run automaton text demand (text.size + 1) 0 state (!automaton.asks) reached

end TypeStub.Tool.Automaton
