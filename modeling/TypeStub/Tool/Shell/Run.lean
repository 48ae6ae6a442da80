import TypeStub.Tool.Shell.Builtin
import TypeStub.Tool.System.Flow

/-!
Contract: what commands do.

Owns:
- `runCommand`, for commands of every form;
- `dispatch`, which finds the command that fields name;
- the ends of scripts, and what is done on signals.

Does not own: scripts as texts (`TypeStub.Tool.Shell.Script`).
-/

namespace TypeStub.Tool.Shell

/-! ## Ends -/

/-- Run something to its end, but for the end of the whole script. -/
def settle (body : Running Nat) : Running Nat :=
  tryCatch body fun
    | .exit code | .back code => return code
    | .failed => return misuse
    | .leave _ | .again _ => return 0
    | .killed signal => throw (.killed signal)

/-- Run something to its end, and then what is to be done at the end of a script. -/
def ending (machine : Machine) (body : Running Nat) : Running Nat := do
  let code ← settle body
  match (← get).traps.lookup 0 with
  | none | some [] => return code
  | some action =>
      modify fun state =>
        { state with traps := dropKey 0 state.traps, interrupted := some code, status := code }
      tryCatch (do let _ ← machine.runText false action; return code) fun
        | .exit code => return code
        | .failed => return misuse
        | .killed signal => throw (.killed signal)
        | _ => return code

/-- Do what is to be done on the signals that came. -/
def answerSignals (machine : Machine) : Running Unit := do
  let before ← get
  if before.outerTraps.isNone && !before.pending.isEmpty then
    set { before with pending := [] }
    before.pending.forM fun signal => do
      match (← get).traps.lookup signal with
      | none | some [] => return ()
      | some action =>
          restoring (fun after =>
              { after with status := before.status, interrupted := before.interrupted }) do
            modify fun state => { state with interrupted := some before.status }
            let _ ← machine.runText false action

/-- Put the code of a command. With `counts` its failure ends a script that is to end on
failures, unless it is tested. -/
def finish (machine : Machine) (counts tested : Bool) (code : Nat) : Running Nat := do
  modify fun state => { state with status := code }
  answerSignals machine
  if counts && !tested && code != 0 && (← get).has 'e' then throw (.exit code)
  else return code

/-- The way in which words run commands. -/
def Machine.runner (machine : Machine) : Runner := fun command =>
  ending machine (machine.run false command)

/-! ## Commands by their names -/

/-- Run a command of scripts. A failure ends the script only if the command is special. -/
def runBuiltin (machine : Machine) (tested : Bool) (name : ByteText) (builtin : Builtin)
    (arguments : List ByteText) : Running Nat := do
  let outer := (← get).command
  restoring (fun state => { state with command := outer }) do
    modify fun state => { state with command := if name = "command".toList then outer else name }
    tryCatch (builtin machine tested arguments) fun
      | .failed => if isSpecial name then throw .failed else return misuse
      | other => throw other

/-- Variables after those that local ones have hidden are back. -/
def unhidden (hidden : List (ByteText × Option Variable)) (bindings : List (ByteText × Variable)) :
    List (ByteText × Variable) :=
  hidden.foldl (fun bindings (name, old) =>
    match old with
    | some held => putKey name held bindings
    | none => dropKey name bindings) bindings

/-- How many functions can run in each other. -/
def greatestCalls : Nat :=
  1000

def callFunction (machine : Machine) (tested : Bool) (body : Command) (arguments : List ByteText) :
    Running Nat := do
  let outer ← get
  if greatestCalls ≤ outer.hidden.length then
    abort "Maximum function recursion depth (1000) reached".toList
  let restore (inner : State) : State :=
    { inner with
      arguments := outer.arguments
      loops := outer.loops
      place := outer.place
      hidden := outer.hidden
      bindings := unhidden (inner.hidden.headD []) inner.bindings }
  let (code, hidden) ← restoring restore do
    set { outer with arguments, loops := 0, place := ⟨1, none⟩, hidden := [] :: outer.hidden }
    let code ← tryCatch (machine.run tested body) fun
      | .back code => return code
      | other => throw other
    return (code, (← get).hidden.headD [])
  match hidden.find? fun (name, old) => old.isNone && !isName name with
  | some (name, _) => refuseName name
  | none => return code

/-- Run the command that fields name, with the directories where programs are. -/
def dispatch (machine : Machine) (functions tested : Bool) (list : Option ByteText)
    (fields : List ByteText) : Running Nat := do
  match fields with
  | [] => return 0
  | name :: arguments =>
      let known := (← get).functions
      let function := if functions && !isSpecial name then known.lookup name else none
      match function, builtin? name with
      | some body, _ => callFunction machine tested body arguments
      | none, some builtin => runBuiltin machine tested name builtin arguments
      | none, none =>
          let status ← runProgram machine.programs list name arguments
          tellStatus status
          return codeOf status

/-! ## Simple commands -/

/-- The words of the command are assignments where they have their form. -/
def declares (name : ByteText) : Bool :=
  ["alias", "export", "local", "readonly"].contains (String.ofList name)

def expandWords (runner : Runner) (before : List ByteText) : List Word → Running (List ByteText)
  | [] => return before
  | word :: rest => do
      let fields ←
        match word.assignment?.filter fun _ => before.head?.any declares with
        | some (name, value) => pure [name ++ '=' :: (← expandValue runner value)]
        | none => expandFields runner word
      expandWords runner (before ++ fields) rest

/-- The text in front of a command that is shown. -/
def traceMark (runner : Runner) : Running ByteText := do
  let state ← get
  match readDocument ((state.value? "PS4".toList).getD []) with
  | .ok word =>
      set { state with options := putOption false 'x' state.options }
      let mark ← expandText runner word
      modify fun after => { after with options := state.options, status := state.status }
      return mark
  | .error _ => return []

/-- Show a command before it runs, on the complaints of before its redirections. -/
def trace (runner : Runner) (saved : List (Nat × Nat)) (fields : List ByteText) :
    Running Unit := do
  if (← get).has 'x' then
    let mark ← traceMark runner
    let now ← descriptors
    putDescriptors saved
    say (mark ++ [' '].intercalate fields)
    putDescriptors now

/-- Do assignments; the answer has what they write. -/
def assignAll (runner : Runner) (assignments : List (ByteText × Word)) :
    Running (List ByteText) :=
  assignments.mapM fun (name, word) => do
    let value ← expandValue runner word
    assign name value
    return name ++ '=' :: value

def exportAll (names : List ByteText) : Running Unit :=
  modify fun state =>
    { state with
      bindings := state.bindings.map fun (name, held) =>
        (name, if names.contains name then { held with exported := true } else held) }

/-- Run a simple command. Its assignments stay if it names nothing or something special. -/
def runSimple (machine : Machine) (tested : Bool) (assignments : List (ByteText × Word))
    (words : List Word) (redirects : List Redirect) : Running Nat := do
  modify fun state => { state with substituted := none }
  let fields ← expandWords machine.runner [] words
  let saved ← descriptors
  let isLasting : Bool := fields.head?.all isSpecial
  let keeps : Bool := fields == ["exec".toList] || fields == ["command".toList, "exec".toList]
  let names := assignments.map (·.1)
  let body : Running Nat := do
    let bindings := (← get).bindings
    let old := if isLasting then [] else names.map fun name => (name, bindings.lookup name)
    restoring (fun state => { state with bindings := unhidden old.reverse state.bindings }) do
      let written ← assignAll machine.runner assignments
      if !isLasting then exportAll names
      trace machine.runner saved (written ++ fields)
      match fields with
      | [] => return (← get).substituted.getD 0
      | fields => dispatch machine true tested (← searchList) fields
  match ← withRedirects machine.runner keeps redirects body with
  | some code => return code
  | none => if fields.head?.any isSpecial then throw .failed else return misuse

/-! ## Compound commands -/

inductive Round where
  | last (code : Nat)
  | more (code : Nat)

def roundOf (body : Running Round) : Running Round :=
  tryCatch body fun
    | .leave (loops + 2) => throw (.leave (loops + 1))
    | .leave _ => return .last 0
    | .again (loops + 2) => throw (.again (loops + 1))
    | .again _ => return .more 0
    | other => throw other

/-- Run inside of one more loop. -/
def inLoop (body : Running Nat) : Running Nat := do
  let loops := (← get).loops
  restoring (fun state => { state with loops }) do
    modify fun state => { state with loops := loops + 1 }
    body

/-- How often a loop can run. -/
def greatestRounds : Nat :=
  10000000

def runLoop (machine : Machine) (tested result : Bool) (test body : Command) :
    (rounds code : Nat) → Running Nat
  | 0, _ => throw (.killed 9)
  | rounds + 1, code => do
      let round ← roundOf do
        let value ← machine.run true test
        if (value == 0) == result then return .more (← machine.run tested body)
        else return .last code
      match round with
      | .last code => return code
      | .more code => runLoop machine tested result test body rounds code

def runEach (machine : Machine) (tested : Bool) (name : ByteText) (body : Command) :
    List ByteText → (code : Nat) → Running Nat
  | [], code => return code
  | value :: rest, _ => do
      assign name value
      match ← roundOf (.more <$> machine.run tested body) with
      | .last code => return code
      | .more code => runEach machine tested name body rest code

def anyFits (machine : Machine) (value : ByteText) : List Word → Running Bool
  | [] => return false
  | pattern :: rest => do
      if fits (← expandPattern machine.runner pattern) value then return true
      else anyFits machine value rest

/-- Run the first case with a pattern that fits the value. -/
def runChoice (machine : Machine) (tested : Bool) (value : ByteText) :
    List (List Word × Command) → Running Nat
  | [] => return 0
  | (patterns, body) :: rest => do
      if ← anyFits machine value patterns then machine.run tested body
      else runChoice machine tested value rest

/-- Run the stages of a pipeline, each on what the one before writes. -/
def runStages (machine : Machine) (tested : Bool) (state : State) :
    List Command → (input : Option Nat) → Job Departure
  | [], _ => return ⟨0, [], none⟩
  | stage :: rest, input => do
      let run (output : Option Nat) : Job Departure :=
        subshell state id do
          input.forM fun opened => putDescriptor 0 opened
          output.forM fun opened => putDescriptor 1 opened
          ending machine (machine.run tested stage)
      if rest.isEmpty then run none
      else
        let (first, last) ← connect (fun opened => run (some opened))
          (fun opened => runStages machine tested state rest (some opened)) greatestGrowth pipeRoom
        return ⟨last.code, first.pending ++ last.pending, first.killed.or last.killed⟩

def putLine (line : Nat) : Running Unit :=
  modify fun state => { state with line }

def runCommand (machine : Machine) (tested : Bool) (command : Command) : Running Nat := do
  if (← get).has 'n' then return (← get).status
  else
    let uncounted := finish machine false tested
    let counted := finish machine true tested
    match command with
    | .nothing => uncounted 0
    | .simple line assignments words redirects =>
        putLine line
        counted (← runSimple machine tested assignments words redirects)
    | .pipeline stages =>
        counted (← (← runStages machine tested (← get) stages none).notice)
    | .subshell body =>
        counted (← inSubshell (ending machine (machine.run tested body)))
    | .background body =>
        inBackground (ending machine (machine.run false body))
        counted 0
    | .negation body =>
        uncounted (if (← machine.run true body) = 0 then 1 else 0)
    | .both first second =>
        let code ← machine.run true first
        if code = 0 then machine.run tested second else return code
    | .either first second =>
        let code ← machine.run true first
        if code = 0 then return code else machine.run tested second
    | .sequence first second =>
        let _ ← machine.run tested first
        machine.run tested second
    | .redirected body redirects =>
        match ← withRedirects machine.runner false redirects (machine.run tested body) with
        | some code => uncounted code
        | none => counted misuse
    | .conditional test positive negative =>
        if (← machine.run true test) = 0 then machine.run tested positive
        else machine.run tested negative
    | .loop result test body =>
        uncounted (← inLoop (runLoop machine tested result test body greatestRounds 0))
    | .each line name words body =>
        putLine line
        let values ← expandWords machine.runner [] words
        uncounted (← inLoop (runEach machine tested name body values 0))
    | .choice line word cases =>
        putLine line
        let value ← expandText machine.runner word
        uncounted (← runChoice machine tested value cases)
    | .definition name body =>
        modify fun state => { state with functions := putKey name body state.functions }
        uncounted 0

end TypeStub.Tool.Shell
