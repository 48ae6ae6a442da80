import TypeStub.Tool.Pattern

/-!
Contract: sets of bytes in square brackets.

Owns:
- `PatternDefect`, why a text writes no regular expression;
- `readBracket`, which reads the set behind an opening bracket, a `BracketText`.

Inside brackets a backslash stands for itself. A hyphen between two members makes a range,
and an inner bracket with a colon, an equals sign or a dot names a class, the bytes that
count as one, or a byte.
-/

namespace TypeStub.Tool

/-- Why a text writes no regular expression. -/
inductive PatternDefect where
  | openGroup
  | closedGroup
  | openBracket
  | openInterval
  | intervalContent
  | rangeEnd
  | className
  | collation
  | reference
  | trailingBackslash
  | repetition
  | tooBig
  /-- Nothing stands behind an opening bracket. -/
  | malformed
deriving DecidableEq, Repr

def PatternDefect.message : PatternDefect → String
  | .openGroup => "Unmatched ( or \\("
  | .closedGroup => "Unmatched ) or \\)"
  | .openBracket => "Unmatched [, [^, [:, [., or [="
  | .openInterval => "Unmatched \\\x7b"
  | .intervalContent => "Invalid content of \\\x7b\\\x7d"
  | .rangeEnd => "Invalid range end"
  | .className => "Invalid character class name"
  | .collation => "Invalid collation character"
  | .reference => "Invalid back reference"
  | .trailingBackslash => "Trailing backslash"
  | .repetition => "Invalid preceding regular expression"
  | .tooBig => "Regular expression too big"
  | .malformed => "Invalid regular expression"

inductive BracketSign where
  | byte (c : Char)
  | closing
  | hyphen
  | inner (sign : Char)
deriving DecidableEq, Repr

/-- The sign at the beginning of a text inside of brackets, and the rest. -/
def bracketSign? : ByteText → Option (BracketSign × ByteText)
  | [] => none
  | '[' :: '.' :: rest => some (.inner '.', rest)
  | '[' :: '=' :: rest => some (.inner '=', rest)
  | '[' :: ':' :: rest => some (.inner ':', rest)
  | ']' :: rest => some (.closing, rest)
  | '-' :: rest => some (.hyphen, rest)
  | c :: rest => some (.byte c, rest)

/-- A member of a set before ranges are known. -/
inductive BracketItem where
  | byte (c : Char)
  | named (name : ByteText)
  | same (name : ByteText)
  | symbol (name : ByteText)
deriving DecidableEq, Repr

/-- The longest name between inner brackets, with the sign that ends it. -/
def longestName : Nat :=
  32

/-- The name behind an inner bracket, and the rest behind its closing one. -/
def bracketName? (sign : Char) : (room : Nat) → ByteText → Option (ByteText × ByteText)
  | 0, _ => none
  | room + 1, c :: d :: rest =>
      if c = sign ∧ d = ']' then some ([], rest)
      else (bracketName? sign room (d :: rest)).map fun (name, rest) => (c :: name, rest)
  | _, _ => none

/-- The item that a sign begins. A hyphen is one at the beginning and at the end. -/
def bracketItem (takesHyphen : Bool) (sign : BracketSign) (rest : ByteText) :
    Except PatternDefect (BracketItem × ByteText) :=
  match sign with
  | .byte c => .ok (.byte c, rest)
  | .closing => .ok (.byte ']', rest)
  | .hyphen =>
      if takesHyphen then .ok (.byte '-', rest)
      else
        match bracketSign? rest with
        | some (.closing, _) => .ok (.byte '-', rest)
        | _ => .error .rangeEnd
  | .inner sign =>
      match bracketName? sign longestName rest with
      | none => .error .openBracket
      | some (name, rest) =>
          .ok (if sign = ':' then .named name else if sign = '=' then .same name
            else .symbol name, rest)

inductive BracketMember where
  | byte (c : Char)
  | range (low high : Char)
  | named (name : ByteText)
deriving DecidableEq, Repr

def BracketItem.bound : BracketItem → Except PatternDefect Char
  | .byte c => .ok c
  | .symbol [c] => .ok c
  | .symbol _ => .error .collation
  | .named _ | .same _ => .error .rangeEnd

def BracketItem.member : BracketItem → Except PatternDefect BracketMember
  | .byte c | .symbol [c] | .same [c] => .ok (.byte c)
  | .symbol _ | .same _ => .error .collation
  | .named name => if (classTest? name).isSome then .ok (.named name) else .error .className

/-- The byte as it counts where case may not. -/
def foldedByte (folds : Bool) (c : Char) : Char :=
  if folds then c.toUpper else c

def bracketMember (folds : Bool) (item : BracketItem) (rest : ByteText) :
    Except PatternDefect (BracketMember × ByteText) :=
  let alone := item.member.map (·, rest)
  match item with
  | .named _ | .same _ => alone
  | .byte _ | .symbol _ =>
      match bracketSign? rest with
      | none => .error .openBracket
      | some (.hyphen, behind) =>
          match bracketSign? behind with
          | none => .error .openBracket
          | some (.closing, _) => alone
          | some (sign, behind) => do
              let (last, rest) ← bracketItem true sign behind
              let high ← last.bound
              let low ← item.bound
              if foldedByte folds high < foldedByte folds low then .error .rangeEnd
              else .ok (.range low high, rest)
      | some _ => alone

/-- The members up to the closing bracket, of which at most `steps` are read, and the rest
behind it. A closing bracket is a member if it comes first. -/
def bracketMembers (folds : Bool) :
    (steps : Nat) → (isFirst : Bool) → ByteText →
      Except PatternDefect (List BracketMember × ByteText)
  | 0, _, _ => .error .openBracket
  | steps + 1, isFirst, text =>
      match bracketSign? text with
      | none => .error (if isFirst then .malformed else .openBracket)
      | some (sign, rest) =>
          if sign = BracketSign.closing ∧ !isFirst then .ok ([], rest)
          else do
            let (item, rest) ← bracketItem isFirst sign rest
            let (member, rest) ← bracketMember folds item rest
            let (members, rest) ← bracketMembers folds steps false rest
            return (member :: members, rest)

def BracketMember.has (folds : Bool) (c : Char) : BracketMember → Bool
  | .byte d => foldedByte folds c == foldedByte folds d
  | .range low high =>
      foldedByte folds low ≤ foldedByte folds c && foldedByte folds c ≤ foldedByte folds high
  | .named name =>
      let cases := folds && (name == "upper".toList || name == "lower".toList)
      ((classTest? (if cases then "alpha".toList else name)).map (· c)).getD false

/-- The members look like the name of a class with its colons. -/
def looksLikeClass (members : List BracketMember) : Bool :=
  let isPlain : BracketMember → Bool
    | .byte _ => true
    | _ => false
  members.all isPlain && members.head? == some (.byte ':') && members.getLast? == some (.byte ':') &&
    members.any (· != .byte ':')

structure BracketText where
  set : ByteClass
  /-- The name of a class stands in one pair of brackets only. -/
  loose : Bool
  rest : ByteText

/-- Read brackets behind the opening one. With `byLine` a set of all bytes but some has no line
feed. -/
def readBracket (folds byLine : Bool) (text : ByteText) : Except PatternDefect BracketText := do
  let (negated, body) := match text with
    | '^' :: rest => (true, rest)
    | _ => (false, text)
  let (members, rest) ← bracketMembers folds (body.length + 1) true body
  let has (c : Char) : Bool :=
    members.any (·.has folds c) != negated && !(negated && byLine && c == '\n')
  return ⟨.ofTest has, looksLikeClass members, rest⟩

end TypeStub.Tool
