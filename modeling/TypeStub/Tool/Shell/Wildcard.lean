import TypeStub.Tool.ByteSet

/-!
Contract: the patterns of scripts.

Owns:
- `Wildcard`, a sign of a pattern;
- `fits`, which says whether a text fits a pattern.

A pattern is read from bytes that keep whether they were quoted. Quoted ones stand for
themselves, and so do those behind a backslash that comes from an expansion.
-/

namespace TypeStub.Tool.Shell

inductive WildcardMember where
  | range (low high : Char)
  | named (name : ByteText)
deriving DecidableEq, Repr

inductive Wildcard where
  | byte (c : Char)
  | one
  | many
  | set (members : List WildcardMember) (negated : Bool)
deriving DecidableEq, Repr

def WildcardMember.has (c : Char) : WildcardMember → Bool
  | .range low high => low ≤ c && c ≤ high
  | .named name => ((classTest? name).map (· c)).getD false

/-- The name of a class behind its colon, and the rest. -/
def className? (text : List (Char × Bool)) : Option (ByteText × List (Char × Bool)) :=
  let name := (text.takeWhile fun (c, _) => c.isAlpha).map (·.1)
  match text.drop name.length with
  | (':', _) :: (']', _) :: rest => if (classTest? name).isSome then some (name, rest) else none
  | _ => none

/-- The member of a set that stands for itself, and the rest. -/
def wildcardByte? : List (Char × Bool) → Option ((Char × Bool) × List (Char × Bool))
  | ('\\', false) :: (c, _) :: rest => some ((c, true), rest)
  | c :: rest => some (c, rest)
  | [] => none

/-- The members of a set up to its closing bracket, of which at most `steps` are read, and
the rest; nothing if there is no closing bracket. -/
def wildcardMembers : (steps : Nat) → (isFirst : Bool) → List (Char × Bool) →
    Option (List WildcardMember × List (Char × Bool))
  | 0, _, _ => none
  | steps + 1, isFirst, text => do
      let ((c, quoted), rest) ← wildcardByte? text
      let more (member : WildcardMember) (rest : List (Char × Bool)) :
          Option (List WildcardMember × List (Char × Bool)) := do
        let (members, rest) ← wildcardMembers steps false rest
        return (member :: members, rest)
      let single : Option (List WildcardMember × List (Char × Bool)) :=
        match rest with
        | ('-', false) :: behind =>
            match wildcardByte? behind with
            | some ((high, highQuoted), behind) =>
                if high = ']' ∧ !highQuoted then more (.range c c) rest
                else more (.range c high) behind
            | none => more (.range c c) rest
        | _ => more (.range c c) rest
      if c = ']' ∧ !quoted ∧ !isFirst then return ([], rest)
      else if c = '[' ∧ !quoted ∧ rest.head? = some (':', false) then
        match className? rest.tail with
        | some (name, behind) => more (.named name) behind
        | none => single
      else single

/-- The signs of a pattern, of which at most `steps` are read. -/
def wildcardsFrom : (steps : Nat) → List (Char × Bool) → List Wildcard
  | 0, _ => []
  | _, [] => []
  | steps + 1, ('\\', false) :: (c, _) :: rest => .byte c :: wildcardsFrom steps rest
  | steps + 1, (c, quoted) :: rest =>
      if quoted then .byte c :: wildcardsFrom steps rest
      else if c = '*' then .many :: wildcardsFrom steps rest
      else if c = '?' then .one :: wildcardsFrom steps rest
      else if c = '[' then
        let (negated, body) := match rest with
          | ('!', false) :: body | ('^', false) :: body => (true, body)
          | _ => (false, rest)
        match wildcardMembers (body.length + 1) true body with
        | some (members, rest) => .set members negated :: wildcardsFrom steps rest
        | none => .byte c :: wildcardsFrom steps rest
      else .byte c :: wildcardsFrom steps rest

def wildcards (text : List (Char × Bool)) : List Wildcard :=
  wildcardsFrom text.length text

def fits : List Wildcard → ByteText → Bool
  | [], text => text.isEmpty
  | .many :: rest, text => (List.range (text.length + 1)).any fun size => fits rest (text.drop size)
  | _ :: _, [] => false
  | .one :: rest, _ :: text => fits rest text
  | .byte d :: rest, c :: text => c == d && fits rest text
  | .set members negated :: rest, c :: text =>
      members.any (·.has c) != negated && fits rest text

/-- A part of the text up to its first mark between arguments fits the pattern. -/
def fitsUpToMark (pattern : List Wildcard) (text : ByteText) : Bool :=
  fits pattern (text.takeWhile (· ≠ '\x00'))

/-- The text without the part at one of its ends that fits a pattern, if there is one. Where
it holds all arguments, the part belongs to one of them, with all that stands behind it. -/
def trimmed (atEnd longest : Bool) (pattern : List Wildcard) (text : ByteText) : ByteText :=
  let sizes := List.range (text.length + 1)
  let sizes := if longest then sizes.reverse else sizes
  if atEnd then
    match sizes.find? fun size => fitsUpToMark pattern (text.drop (text.length - size)) with
    | some size => text.take (text.length - size)
    | none => text
  else
    match sizes.find? fun size => fitsUpToMark pattern (text.take size) with
    | some size => text.drop size
    | none => text

end TypeStub.Tool.Shell
