import TypeStub.Tool.ByteSet
import TypeStub.Tool.Copy

/-!
Contract: the program that maps, deletes and squeezes single bytes.

Owns: `tr`, with the conditions on its two sets.
-/

namespace TypeStub.Tool

/-! ## Pairs of sets -/

/-- A byte of a set in its place. Behind the first byte of a class of letters stand
`following` more of it, which a change of case takes along. -/
structure SetCell where
  byte : Char
  opens : Bool
  /-- The class of letters that the byte belongs to: upper case or not. -/
  isUpper : Option Bool
  following : Nat
deriving DecidableEq, Repr

def SetPart.letters? : SetPart → Option Bool
  | .named name =>
      if name = "upper".toList then some true
      else if name = "lower".toList then some false
      else none
  | _ => none

def SetPart.isNamed : SetPart → Bool
  | .named _ => true
  | _ => false

def SetPart.isEndless : SetPart → Bool
  | .repeated _ none => true
  | _ => false

def SetPart.cells (part : SetPart) : List SetCell :=
  let bytes := part.bytes
  bytes.mapIdx fun place byte => ⟨byte, place == 0, part.letters?, bytes.length - place - 1⟩

def cellsTo (length : Nat) (parts : List SetPart) : List SetCell :=
  let own := total (parts.map fun part => part.bytes.length)
  parts.flatMap fun
    | .repeated c none => (SetPart.repeated c (some (length - own))).cells
    | part => part.cells

/-- What pairing two sets makes: single pairs, or that two classes of letters stand side by
side. -/
inductive Pair where
  | single (source target : Char)
  | letters (sourceUpper targetUpper : Bool)
deriving DecidableEq, Repr

/-- Pair two sets, at most `steps` pairs. A class of letters in the second one stands where
one stands in the first, and not at once behind its end. Nothing is paired with the cells that
one set has more. -/
def pairs? : (steps : Nat) → List SetCell → List SetCell → Option (List Pair)
  | 0, _, _ => some []
  | _, [], [] => some []
  | _, [], target :: _ => if target.isUpper.isSome then none else some []
  | _, _ :: _, [] => some []
  | steps + 1, source :: sources, target :: targets =>
      match target.isUpper with
      | none => (pairs? steps sources targets).map (.single source.byte target.byte :: ·)
      | some targetUpper =>
          match source.isUpper with
          | some sourceUpper =>
              if source.opens || !target.opens then
                (pairs? steps (sources.drop source.following)
                  (targets.drop target.following)).map (.letters sourceUpper targetUpper :: ·)
              else none
          | none => none

/-- What the pairs make of a byte. A later pair counts. -/
def mapByte (pairs : List Pair) (c : Char) : Char :=
  pairs.foldl (fun made pair =>
    match pair with
    | .single source target => if source = c then target else made
    | .letters false true => if c.isLower then c.toUpper else made
    | .letters true false => if c.isUpper then c.toLower else made
    | .letters _ _ => made) c

/-! ## The work on the input -/

/-- A table of what a function makes of each byte. -/
def byteTable {α : Type} (f : Char → α) : Array α :=
  (allBytes.map f).toArray

def memberTable (set : ByteText) : Char → Bool :=
  let table := byteTable set.contains
  fun c => table.getD c.toNat false

structure ByteWork where
  /-- What a byte becomes, or that it is left out. -/
  map : Char → Option Char
  /-- Of a run of this byte only one is put out. -/
  squeezes : Char → Bool

/-- What the work makes of a text behind the byte that it put out last, with that byte
afterwards. -/
def ByteWork.apply (work : ByteWork) (last : Option Char) (made : ByteText) :
    ByteText → Option Char × ByteText
  | [] => (last, made.reverse)
  | c :: rest =>
      match work.map c with
      | none => apply work last made rest
      | some c =>
          if last == some c && work.squeezes c then apply work last made rest
          else apply work (some c) (c :: made) rest

/-! ## Arguments -/

def trOptions : OptionTable where
  flags := "cCdst".toList
  valued := []
  names :=
    [("complement", 'c'), ("delete", 'd'), ("squeeze-repeats", 's'), ("truncate-set1", 't')]
  valuedNames := []
  permutes := false

def operandProblem? (deletes squeezes : Bool) (operands : List ByteText) : Option ByteText :=
  let least := if deletes = squeezes then 2 else 1
  let most := if deletes && !squeezes then 1 else 2
  match operands with
  | [] => some "missing operand".toList
  | [first] =>
      if least ≤ 1 then none
      else
        some ("missing operand after ".toList ++ spelled first ++
          (if squeezes then
            "\nTwo strings must be given when both deleting and squeezing repeats.".toList
          else "\nTwo strings must be given when translating.".toList))
  | all =>
      match all.drop most with
      | [] => none
      | surplus :: _ =>
          some ("extra operand ".toList ++ spelled surplus ++
            (if all.length = 2 then
              "\nOnly one string may be given when deleting without squeezing repeats.".toList
            else []))

def sourceBytes (complemented : Bool) (parts : List SetPart) : ByteText :=
  let bytes := parts.flatMap SetPart.bytes
  if complemented then allBytes.filter (!bytes.contains ·) else bytes

/-- The cells of the second set, lengthened by its last byte to `length` cells at least. -/
def lengthened (length : Nat) (parts : List SetPart) : Except String (List SetCell) :=
  let cells := cellsTo length parts
  match cells.getLast? with
  | none => .error "when not truncating set1, string2 must be non-empty"
  | some last =>
      if (parts.reverse.find? fun part => !part.cells.isEmpty || part.isEndless).any
          SetPart.isNamed then
        .error ("when translating with string1 longer than string2,\nthe latter string must " ++
          "not end with a character class")
      else
        .ok (cells ++ List.replicate length ⟨last.byte, false, none, 0⟩)

/-- The length of a set in a pair, where a class of letters that is paired counts once. -/
def pairedLength (paired : List Pair) (length : Nat) : Nat :=
  length - 25 * (paired.filter fun pair => pair matches .letters _ _).length

def pairsOf (complemented truncates : Bool) (first second : List SetPart) :
    Except String (List Pair) := do
  let source := sourceBytes complemented first
  if second.any fun part => part matches .same _ then
    throw "[=c=] expressions may not appear in string2 when translating"
  if second.any fun part => part.isNamed && part.letters?.isNone then
    throw ("when translating, the only character classes that may appear in\nstring2 are " ++
      "'upper' and 'lower'")
  let own : List SetCell :=
    if complemented then source.map (⟨·, true, none, 0⟩) else first.flatMap SetPart.cells
  let cells := cellsTo source.length second
  let aligned : List Pair ←
    if complemented then pure []
    else
      match pairs? (source.length + 1) own cells with
      | none => throw "misaligned [:upper:] and/or [:lower:] construct"
      | some aligned => pure aligned
  let target ←
    if pairedLength aligned source.length ≤ pairedLength aligned cells.length || truncates then
      pure cells
    else lengthened source.length second
  if complemented && first.any SetPart.isNamed &&
      !((cells.length == source.length || (cells.length < source.length && !truncates)) &&
        target.all fun cell => some cell.byte == (target.head?.map (·.byte))) then
    throw ("when translating with complemented character classes,\nstring2 must map all " ++
      "characters in the domain to one")
  let bare := if complemented then target.map fun cell => { cell with isUpper := none }
    else target
  return (pairs? (source.length + 1) own bare).getD []

/-- The work on the input that options and sets ask for. -/
def workOf (given : Given) (first : List SetPart) (second : Option (List SetPart)) :
    Except String ByteWork := do
  let complemented := given.has 'c' || given.has 'C'
  let source := sourceBytes complemented first
  let second := second.map fun parts => parts.map (SetPart.upTo (source.length + 1))
  if first.any SetPart.isEndless then
    throw "the [c*] repeat construct may not appear in string1"
  if (second.getD []).countP SetPart.isEndless > 1 then
    throw "only one [c*] repeat construct may appear in string2"
  match given.has 'd', second with
  | true, _ =>
      if (second.getD []).any SetPart.isEndless then
        throw "the [c*] construct may appear in string2 only when translating"
      let inSource := memberTable source
      let inSet := memberTable ((second.getD []).flatMap SetPart.bytes)
      return ⟨fun c => if inSource c then none else some c, inSet⟩
  | false, none => return ⟨some, memberTable source⟩
  | false, some parts =>
      let pairs ← pairsOf complemented (given.has 't') first parts
      let table := byteTable (mapByte pairs)
      let inSet := memberTable ((cellsTo source.length parts).map (·.byte))
      return ⟨fun c => some (table.getD c.toNat c), fun c => given.has 's' && inSet c⟩

/-! ## The program -/

/-- How many bytes are taken at a time. -/
def trBlock : Nat :=
  8192

/-- Do the work on what is left of the input. -/
def transliterate (name : ByteText) (work : ByteWork) : (times : Nat) → (last : Option Char) → Job Nat
  | 0, _ => return 0
  | times + 1, last => do
      match ← readSome 0 trBlock with
      | .error cause =>
          grumble name ("read error: ".toList ++ cause.reason.toList)
          return 1
      | .ok [] => return 0
      | .ok text =>
          let (last, made) := work.apply last [] text
          put made
          if (← get).held.fault.isSome then return 1
          else transliterate name work times last

/-- Map, delete or squeeze bytes of the input. -/
def tr : Program := fun name arguments => do
  let given ← givenTo trOptions name arguments
  match operandProblem? (given.has 'd') (given.has 's') given.operands with
  | some problem =>
      pointToHelp name problem
      return 1
  | none =>
      let sets ← given.operands.mapM fun operand => do
        (SetPart.warnings operand).forM (grumble name)
        match SetPart.readAll? operand with
        | .ok set => return set
        | .error problem =>
            grumble name problem
            throw (.exited 1)
      match workOf given (sets.headD []) sets[1]? with
      | .error problem =>
          grumble name problem.toList
          return 1
      | .ok work => concluding name (transliterate name work greatestReads none)

end TypeStub.Tool
