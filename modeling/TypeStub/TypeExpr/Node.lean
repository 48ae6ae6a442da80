import TypeStub.TypeExpr.Malformed
import TypeStub.TypeExpr.Token

/-!
Contract: tokens grouped by their parentheses.

Owns:
- `Node`, a token or a group of nodes in parentheses;
- `Node.ofTokens`, the grouping of a token list, and `Node.flatten`, the tokens of a node;
- the division of an argument list at the commas outside square brackets.
-/

namespace TypeStub

open Malformed (Reason)

/-- A token, or what stands between a pair of parentheses. -/
inductive Node where
  | token (token : Token)
  | group (inner : List Node)
deriving Repr

namespace Node

/-- Group tokens from the left. `current` holds the nodes of the innermost open group and
`outer` those of the groups around it, innermost first, each latest node first. -/
def close (outer : List (List Node)) (current : List Node) :
    List Token → Except Reason (List Node)
  | [] => if outer.isEmpty then .ok current.reverse else .error .unclosedOpening
  | .opening :: rest => close (current :: outer) [] rest
  | .closing :: rest =>
      match outer with
      | [] => .error .unmatchedClosing
      | parent :: further => close further (.group current.reverse :: parent) rest
  | single :: rest => close outer (.token single :: current) rest

/-- The nodes of a token list, which needs matching parentheses. -/
def ofTokens (tokens : List Token) : Except Reason (List Node) :=
  close [] [] tokens

mutual

def flatten : Node → List Token
  | .token single => [single]
  | .group inner => .opening :: (flattenAll inner ++ [.closing])

def flattenAll : List Node → List Token
  | [] => []
  | head :: tail => flatten head ++ flattenAll tail

end

def token? : Node → Option Token
  | .token single => some single
  | .group _ => none

end Node

/-! ## Division at commas -/

namespace Arguments

variable {α : Type}

/-- The depth of square brackets after a token: an opening one adds a level and a closing
one removes a level if there is any. -/
def depthAfter (depth : Nat) : Option Token → Nat
  | some (.other '[') => depth + 1
  | some (.other ']') => depth - 1
  | _ => depth

/-- Divide items at the commas that stand at bracket depth zero; `depth` is the depth
before the first item. -/
def splitFrom (token? : α → Option Token) (depth : Nat) : List α → List (List α)
  | [] => [[]]
  | item :: rest =>
      if token? item = some (.other ',') ∧ depth = 0 then
        [] :: splitFrom token? 0 rest
      else
        (splitFrom token? (depthAfter depth (token? item)) rest).modifyHead (item :: ·)

/-- The arguments in a group: what stands between the commas outside square brackets.
There is always at least one, possibly without items. -/
def split (token? : α → Option Token) (items : List α) : List (List α) :=
  splitFrom token? 0 items

end Arguments

end TypeStub
