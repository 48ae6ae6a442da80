import TypeStub.Proofs.TypeExpr.Printer

/-!
Contract: how many bars spell a type, and how many documentation writes for it.

Owns:
- `TypeExpr.barCount`, the bars between the alternatives of a type;
- that every spelling of a type has that many bars and documentation has one more for each
  atom of value expressions that spells one, so that no type with such an atom is spelled by
  its own nodes (`WellFormed.atomsSpellNoBar_of_spells`).
-/

namespace TypeStub.TypeExpr

open Node (flattenAll)
open Sequence (Spells)
open Token (ofText)

mutual

/-- The number of bars between alternatives, at every depth. -/
def barCount : TypeExpr → Nat
  | .name _ => 0
  | .literal _ => 0
  | .generic _ arguments => barCountOfAll arguments
  | .union alternatives => barCountOfAll alternatives + (alternatives.length - 1)
  | .subscript _ _ => 0

/-- The number of bars in all of the types. -/
def barCountOfAll : List TypeExpr → Nat
  | [] => 0
  | head :: tail => barCount head + barCountOfAll tail

end

mutual

/-- The number of bars that the texts of value expressions spell. -/
def strayBarCount : TypeExpr → Nat
  | .name path => (ofText path.toList).count .bar
  | .literal text => (ofText text.toList).count .bar
  | .generic _ arguments => strayBarCountOfAll arguments
  | .union alternatives => strayBarCountOfAll alternatives
  | .subscript base arguments => (ofText (inlineText (.subscript base arguments))).count .bar

/-- The number of bars that the value expressions of all the types spell. -/
def strayBarCountOfAll : List TypeExpr → Nat
  | [] => 0
  | head :: tail => strayBarCount head + strayBarCountOfAll tail

end

theorem barCountOfAll_eq_sum (types : List TypeExpr) :
    barCountOfAll types = (types.map barCount).sum := by
  induction types with
  | nil => rfl
  | cons head tail inductionHypothesis =>
      rw [barCountOfAll, inductionHypothesis, List.map_cons, List.sum_cons]

private theorem IsValue.barCount_eq {e : TypeExpr} (isValue : IsValue e) :
    e.barCount = 0 ∧ e.strayBarCount = (ofText e.inlineText).count .bar := by
  cases isValue <;> simp [barCount, strayBarCount]

/-! ## The bars of a spelling -/

private theorem barCount_of_parse {text : List Char} {e : TypeExpr}
    (parsed : Value.parse text = .ok e.resolved) : e.barCount = 0 := by
  unfold Value.parse at parsed
  split at parsed
  · cases parsed
  · have spelled := (Value.read_eq_ok_iff.mp parsed).1
    generalize whole : e.resolved.value = value at spelled
    have same : e = value := whole
    cases spelled <;> rw [same, barCount]

/-- The bars of joined pieces are those of the pieces and of the separators between them. -/
private theorem count_flattenAll_intercalate (separator : Token) (pieces : List (List Node)) :
    (flattenAll ([Node.token separator].intercalate pieces)).count .bar =
      (pieces.map fun piece => (flattenAll piece).count .bar).sum +
        (pieces.length - 1) * [separator].count .bar := by
  rw [flattenAll_intercalate]
  have single : flattenAll [Node.token separator] = [separator] := by
    simp [flattenAll, Node.flatten]
  rw [single, Intercalate.count_intercalate, List.map_map, List.length_map]
  rfl

theorem flattenAll_group (inner : List Node) :
    flattenAll [.group inner] = .opening :: (flattenAll inner ++ [.closing]) := by
  simp [flattenAll, Node.flatten]

private theorem count_group (inner : List Node) :
    (flattenAll [.group inner]).count .bar = (flattenAll inner).count .bar := by
  simp [flattenAll_group]

private theorem count_generic (word : List Char) (inner : List Node) :
    (flattenAll [.token (.word word), .group inner]).count .bar =
      (flattenAll inner).count .bar := by
  simp [flattenAll, Node.flatten]

/-- Every spelling of a type has a bar between two alternatives, and no others. -/
theorem count_of_spells {nodes : List Node} {e : TypeExpr} (spelled : Spells nodes e) :
    (flattenAll nodes).count .bar = e.barCount := by
  induction spelled with
  | name => simp [flattenAll, Node.flatten, barCount]
  | value noBar several parsed =>
      rw [Node.flattenAll_map_token, barCount_of_parse parsed, List.count_eq_zero]
      exact noBar
  | @generic word ctor inner arguments named taken divided ofArguments inductionHypothesis =>
      have restored : [Node.token (.other ',')].intercalate (arguments.map Prod.fst) = inner := by
        rw [← divided, Node.intercalate_split]
      have counts := List.map_congr_left inductionHypothesis
      rw [count_generic, ← restored, count_flattenAll_intercalate, barCount, barCountOfAll_eq_sum,
        List.map_map, List.map_map]
      simp [Function.comp_def, counts]
  | grouped ofInner inductionHypothesis => rw [count_group, inductionHypothesis]
  | @union alternatives several noBar ofAlternatives inductionHypothesis =>
      have counts := List.map_congr_left inductionHypothesis
      rw [count_flattenAll_intercalate, barCount, barCountOfAll_eq_sum, List.map_map, List.map_map]
      simp [Function.comp_def, counts]

/-! ## The bars of documentation -/

private theorem count_nodesAsAlternative (e : TypeExpr) :
    (flattenAll e.nodesAsAlternative).count .bar = (flattenAll e.docNodes).count .bar := by
  rw [nodesAsAlternative]
  split
  · exact count_group e.docNodes
  · rfl

private theorem sum_counts {types : List TypeExpr}
    (single : ∀ e ∈ types,
      (flattenAll e.docNodes).count .bar = e.barCount + e.strayBarCount) :
    (types.map fun e => (flattenAll e.docNodes).count .bar).sum =
      barCountOfAll types + strayBarCountOfAll types := by
  induction types with
  | nil => rfl
  | cons head tail inductionHypothesis =>
      have ofHead := single head List.mem_cons_self
      have ofTail := inductionHypothesis fun e member => single e (List.mem_cons_of_mem head member)
      rw [List.map_cons, List.sum_cons, ofHead, ofTail, barCountOfAll, strayBarCountOfAll]
      omega

/-- Documentation has the bars between alternatives and those that value expressions
spell. -/
theorem WellFormed.count_docNodes {e : TypeExpr} (wellFormed : WellFormed e) :
    (flattenAll e.docNodes).count .bar = e.barCount + e.strayBarCount := by
  induction wellFormed with
  | value isValue =>
      rw [isValue.docNodes_eq, Node.flattenAll_map_token, isValue.barCount_eq.1,
        isValue.barCount_eq.2, Nat.zero_add]
  | @generic ctor arguments taken nonempty ofArguments inductionHypothesis =>
      have counted := sum_counts inductionHypothesis
      rw [docNodes, docNodesOfAll_eq_map, count_generic, joinArguments,
        count_flattenAll_intercalate, List.map_map, barCount, strayBarCount]
      simpa [Function.comp_def] using counted
  | @union alternatives several ofAlternatives inductionHypothesis =>
      have counted := sum_counts inductionHypothesis
      rw [docNodes, alternativeNodes_eq_map, joinAlternatives, count_flattenAll_intercalate,
        List.map_map, barCount, strayBarCount, List.length_map]
      simp only [Function.comp_def, count_nodesAsAlternative, counted, List.count_singleton_self,
        Nat.mul_one]
      omega

private theorem atomsSpellNoBar_of_sum {types : List TypeExpr}
    (single : ∀ e ∈ types, e.strayBarCount = 0 → AtomsSpellNoBar e)
    (none : strayBarCountOfAll types = 0) : ∀ e ∈ types, AtomsSpellNoBar e := by
  induction types with
  | nil => simp
  | cons head tail inductionHypothesis =>
      rw [strayBarCountOfAll] at none
      intro e member
      rcases List.mem_cons.mp member with rfl | inTail
      · exact single e List.mem_cons_self (by omega)
      · exact inductionHypothesis (fun e member => single e (List.mem_cons_of_mem head member))
          (by omega) e inTail

private theorem WellFormed.atomsSpellNoBar_of_count {e : TypeExpr} (wellFormed : WellFormed e)
    (none : e.strayBarCount = 0) : AtomsSpellNoBar e := by
  induction wellFormed with
  | value isValue =>
      rw [isValue.barCount_eq.2, List.count_eq_zero,
        Token.bar_mem_ofText isValue.isInline_inlineText, not_not] at none
      exact isValue.spellsNoBar_inlineText.mp none
  | generic taken nonempty ofArguments inductionHypothesis =>
      exact atomsSpellNoBar_generic.mpr (atomsSpellNoBar_of_sum inductionHypothesis none)
  | union several ofAlternatives inductionHypothesis =>
      exact atomsSpellNoBar_union.mpr (atomsSpellNoBar_of_sum inductionHypothesis none)

/-- No atom of a type that its own nodes spell has a bar. -/
theorem WellFormed.atomsSpellNoBar_of_spells {e : TypeExpr} (wellFormed : WellFormed e)
    (spelled : Spells e.docNodes e) : AtomsSpellNoBar e := by
  have ofSpelling := count_of_spells spelled
  have ofDocumentation := wellFormed.count_docNodes
  have none : e.strayBarCount = 0 := by omega
  exact wellFormed.atomsSpellNoBar_of_count none

end TypeStub.TypeExpr
