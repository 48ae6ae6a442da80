/-!
Contract: how far two sequences are apart.

Owns: `editDistance`, the least number of insertions, deletions and substitutions of one element
that turn one list into another, with the two rows of numbers that it is computed in.

Cell `j` of the row behind `i` elements of the source is the distance of those elements to the
first `j` of the target. Only the latest row and the one before it are kept. They change places
with each element, so that a row is written over cells of an older one.
-/

namespace TypeStub.Text

variable {α : Type} [DecidableEq α]

/-- Write the cells of `current` behind cell `j`, one for each element of the target that is
left. The element of the source is deleted, or that of the target is inserted, or the one takes
the place of the other. -/
def fillRow (item : α) (previous : Array Nat) :
    (target : List α) → (j : Nat) → (current : Array Nat) → Array Nat
  | [], _, current => current
  | other :: target, j, current =>
      let cost := if item = other then 0 else 1
      let deleted := previous.getD (j + 1) 0 + 1
      let inserted := current.getD j 0 + 1
      let cell := min (min deleted inserted) (previous.getD j 0 + cost)
      fillRow item previous target (j + 1) (current.setIfInBounds (j + 1) cell)

/-- The row behind all elements of the source, of which `i` are done. -/
def sweepRows (target : List α) :
    (source : List α) → (i : Nat) → (previous current : Array Nat) → Array Nat
  | [], _, previous, _ => previous
  | item :: source, i, previous, current =>
      let row := fillRow item previous target 0 (current.setIfInBounds 0 (i + 1))
      sweepRows target source (i + 1) row previous

/-- The least number of insertions, deletions and substitutions of one element that turn
`source` into `target`. -/
def editDistance (source target : List α) : Nat :=
  let size := target.length + 1
  (sweepRows target source 0 (Array.range size) (Array.replicate size 0)).getD target.length 0

end TypeStub.Text
