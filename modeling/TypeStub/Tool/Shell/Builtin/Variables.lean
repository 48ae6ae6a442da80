import TypeStub.Tool.Shell.Machine

/-!
Contract: the commands that change variables and arguments.

Owns: marks of variables, variables of functions, and the options and arguments of the script
with the command that reads options out of arguments.
-/

namespace TypeStub.Tool.Shell

/-! ## Variables -/

/-- The name in an argument, and the value that it gives. -/
def namedValue (argument : ByteText) : ByteText × Option ByteText :=
  let name := argument.takeWhile (· ≠ '=')
  (name, (argument.drop name.length).tail? |>.filter fun _ => name.length < argument.length)

/-- The variables with values in the order of their names, in the form that sets them. -/
def settings (label : ByteText) (counts : Variable → Bool) (state : State) : ByteText :=
  let counted := state.bindings.filter fun (_, held) => counts held
  let sorted := counted.mergeSort fun a b => decide (String.ofList a.1 < String.ofList b.1)
  sorted.flatMap fun (name, held) =>
    label ++ name ++ (held.value.map fun value => '=' :: requoted value).getD [] ++ ['\n']

/-- Complain about a name that no variable can have. -/
def refuseName {α : Type} (name : ByteText) : Running α :=
  abort (name ++ ": bad variable name".toList)

/-- The name of a variable in an argument, up to an equals sign. -/
def nameIn (argument : ByteText) : Running ByteText := do
  let (name, _) := namedValue argument
  if isName name then return name else refuseName name

/-- Mark variables that arguments name, with the values that they give, or show those that
are marked. -/
def marking (name : String) (mark : Variable → Variable) (marked : Variable → Bool) : Builtin :=
  fun _ _ arguments => do
    let isShowing : Bool := "-p".toList.isPrefixOf (arguments.headD [])
    let named ← if isShowing then pure [] else (·.rest) <$> letters "p" arguments
    if named.isEmpty then putText (settings (name.toList ++ [' ']) marked (← get))
    else
      named.forM fun argument => do
        let name ← nameIn argument
        (namedValue argument).2.forM (assign name)
        modify fun state =>
          let old := (state.bindings.lookup name).getD ⟨none, false, false⟩
          { state with bindings := putKey name (mark old) state.bindings }
      return 0

def forget (argument : ByteText) : Running Unit := do
  let name ← nameIn argument
  let state ← get
  if (state.bindings.lookup name).any Variable.fixed then
    abort (name ++ ": is read only".toList)
  else set { state with bindings := dropKey name state.bindings }

/-- Forget variables or functions. -/
def unset : Builtin := fun _ _ arguments => do
  let read ← letters "vf" arguments
  let functions : Bool := (read.letters.getLast?.map (·.1)) == some 'f'
  read.rest.forM fun name => do
    if functions then
      modify fun state => { state with functions := dropKey name state.functions }
    else forget name
  return 0

/-- Let variables have values of their own in the function. -/
def localize : Builtin := fun _ _ arguments => do
  match (← get).hidden with
  | [] => abort "not in a function".toList
  | _ :: _ =>
      arguments.forM fun argument => do
        let (name, value) := namedValue argument
        if value.isNone && !isName name then refuseName name
        modify fun state =>
          match state.hidden with
          | [] => state
          | innermost :: outer =>
              { state with hidden := ((name, state.bindings.lookup name) :: innermost) :: outer }
        value.forM (assign name)
      return 0

/-! ## Options of the script -/

/-- The letters of options, in the order in which they are shown. -/
def optionLetters : List Char :=
  "upbaCEVvxsnmiIfe".toList

/-- The names of options with their letters. Some have no letter and change nothing. -/
def optionNames : List (String × Option Char) :=
  [("errexit", some 'e'), ("noglob", some 'f'), ("ignoreeof", some 'I'), ("interactive", some 'i'),
   ("monitor", some 'm'), ("noexec", some 'n'), ("stdin", some 's'), ("xtrace", some 'x'),
   ("verbose", some 'v'), ("vi", some 'V'), ("emacs", some 'E'), ("noclobber", some 'C'),
   ("allexport", some 'a'), ("notify", some 'b'), ("nounset", some 'u'), ("privileged", some 'p'),
   ("nolog", none), ("debug", none)]

def putOption (on : Bool) (letter : Char) (options : List Char) : List Char :=
  optionLetters.filter fun other =>
    if other = letter then on else options.contains other

def optionTable (options : List Char) : ByteText :=
  let isOn (letter : Option Char) : Bool := letter.any options.contains
  let row (name : String) (letter : Option Char) : ByteText :=
    name.toList ++ List.replicate (16 - name.length) ' ' ++
      (if isOn letter then "on\n" else "off\n").toList
  "Current option settings\n".toList ++ optionNames.flatMap fun (name, letter) => row name letter

def optionCommands (options : List Char) : ByteText :=
  optionNames.flatMap fun (name, letter) =>
    (if letter.any options.contains then "set -o " else "set +o ").toList ++ name.toList ++ ['\n']

/-- What is read from the options in front of arguments. -/
structure OptionsRead where
  options : List Char
  rest : List ByteText
  takesText : Bool
  /-- The list of arguments is given, even if it is empty. -/
  given : Bool
  /-- What is to be shown, in the order in which it was asked for. -/
  shown : List ByteText

namespace OptionsRead

/-- Set an option by its letter, or by its name behind the letter for that. -/
def put (atStart on : Bool) (read : OptionsRead) (letter : Char) : Except ByteText OptionsRead :=
  if atStart ∧ letter = 'c' then .ok { read with takesText := true }
  else if atStart ∧ letter = 'l' then .ok read
  else if letter = 'o' then
    match read.rest with
    | [] =>
        let text := if on then optionTable read.options else optionCommands read.options
        .ok { read with shown := read.shown ++ [text] }
    | name :: rest =>
        match optionNames.lookup (String.ofList name) with
        | some (some letter) => .ok { read with options := putOption on letter read.options, rest }
        | some none => .ok { read with rest }
        | none => .error ("Illegal option -o ".toList ++ name)
  else if optionLetters.contains letter then
    .ok { read with options := putOption on letter read.options }
  else .error (illegalOption letter)

/-- Read the options of at most so many arguments; `atStart` are those with which a script
starts. -/
def more (atStart : Bool) : (steps : Nat) → OptionsRead → Except ByteText OptionsRead
  | 0, read => .ok read
  | steps + 1, read =>
      match read.rest with
      | ['-', '-'] :: rest => .ok { read with rest, given := true }
      | ['-'] :: rest =>
          let options := if atStart then read.options
            else putOption false 'x' (putOption false 'v' read.options)
          .ok { read with rest, options, given := !rest.isEmpty }
      | (sign :: letters) :: rest =>
          if sign = '-' ∨ sign = '+' then do
            let read ← letters.foldlM (put atStart (sign == '-')) { read with rest }
            more atStart steps read
          else .ok { read with given := true }
      | [] :: _ => .ok { read with given := true }
      | [] => .ok read

end OptionsRead

/-- Read options in front of arguments, or the complaint about them. -/
def readOptions (atStart : Bool) (options : List Char) (arguments : List ByteText) :
    Except ByteText OptionsRead :=
  OptionsRead.more atStart (arguments.length + 1) ⟨options, arguments, false, false, []⟩

/-- The options without the one for the control of processes in the background, which needs a
terminal. A subshell does not ask for one. -/
def withoutJobs (options : List Char) : Running (List Char) := do
  if options.contains 'm' && (← get).outerTraps.isNone then
    complain "can't access tty; job control turned off".toList
    return putOption false 'm' options
  else return options

def setOptions : Builtin := fun _ _ arguments => do
  let state ← get
  match readOptions false state.options arguments with
  | .error problem => abort problem
  | .ok read =>
      if arguments.isEmpty then putText (settings [] (fun held => held.value.isSome) state)
      else
        set { state with
          options := ← withoutJobs read.options
          arguments := if read.given then read.rest else state.arguments
          place := if read.given then ⟨1, none⟩ else state.place }
        putText read.shown.flatten

/-- Leave out some of the first arguments of the script. -/
def shift : Builtin := fun _ _ arguments => do
  let number ← count (arguments.headD ['1'])
  let state ← get
  if state.arguments.length < number then abort "can't shift that many".toList
  else
    set { state with arguments := state.arguments.drop number, place := ⟨1, none⟩ }
    return 0

/-! ## Options in arguments -/

inductive OptionFound where
  | finish
  | letter (letter : Char) (rest : ByteText)

/-- Look for the next option of arguments; the answer also has the argument behind it. -/
def findOption (arguments : List ByteText) (place : OptionPlace) : OptionFound × Nat :=
  let letters := match place.letters with
    | some read => if place.next ≤ 1 then [] else ((arguments[place.next - 2]?).getD []).drop read
    | none => []
  match letters with
  | letter :: rest => (.letter letter rest, place.next)
  | [] =>
      match arguments[place.next - 1]? with
      | some ['-', '-'] => (.finish, place.next + 1)
      | some ('-' :: letter :: rest) => (.letter letter rest, place.next + 1)
      | _ => (.finish, place.next)

/-- What the command that reads options says about one of them. -/
structure OptionAnswer where
  letter : Char
  /-- The text that belongs to the option; without one the last one is forgotten. -/
  text : Option ByteText
  complaint : Option ByteText
  place : OptionPlace

def readOption? (known : ByteText) (arguments : List ByteText) (place : OptionPlace) :
    Option OptionAnswer × OptionPlace :=
  let quiet : Bool := known.head? == some ':'
  match findOption arguments place with
  | (.finish, next) => (none, ⟨next, none⟩)
  | (.letter letter rest, next) =>
      let left : Option Nat :=
        some (((arguments[next - 2]?).getD []).length - rest.length)
      let answer (letter : Char) (text complaint : Option ByteText) (place : OptionPlace) :
          Option OptionAnswer × OptionPlace :=
        (some ⟨letter, text, complaint, place⟩, place)
      match known.dropWhile (· ≠ letter) with
      | _ :: ':' :: _ =>
          match rest, arguments[next - 1]? with
          | [], none =>
              let place : OptionPlace := ⟨next, none⟩
              if quiet then answer ':' (some [letter]) none place
              else answer '?' none (some ("No arg for -".toList ++ letter :: " option".toList)) place
          | [], some text => answer letter (some text) none ⟨next + 1, none⟩
          | text, _ => answer letter (some text) none ⟨next, none⟩
      | _ :: _ => answer letter (some []) none ⟨next, left⟩
      | [] =>
          if quiet then answer '?' (some [letter]) none ⟨next, left⟩
          else answer '?' none (some (illegalOption letter)) ⟨next, left⟩

def nextOption : Builtin := fun _ _ arguments => do
  match arguments with
  | known :: name :: given => do
      let state ← get
      let options := if given.isEmpty then state.arguments else given
      let place := if options.length + 1 < state.place.next then ⟨1, none⟩ else state.place
      let (answer, place) := readOption? known options place
      answer.forM fun answer => do
        answer.complaint.forM fun complaint => say complaint
        match answer.text with
        | some text => assign "OPTARG".toList text
        | none => forget "OPTARG".toList
      assign "OPTIND".toList (decimalText place.next)
      modify fun state => { state with place }
      assign (← nameIn name) [(answer.map OptionAnswer.letter).getD '?']
      return if answer.isSome then 0 else 1
  | _ => abort "Usage: getopts optstring var [arg...]".toList

end TypeStub.Tool.Shell
