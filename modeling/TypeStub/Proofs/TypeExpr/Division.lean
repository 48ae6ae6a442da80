import Mathlib.Data.List.Infix
import TypeStub.Proofs.TypeExpr.Printer

/-!
Contract: where the reader divides an argument list, for every list of nodes.

Owns:
- `Node.bracketExcess` and `Node.bracketDepth`, the square brackets along a node list: counted
  with their signs, and with a depth that does not fall below zero;
- `Arguments.cutPlaces`, the places of the commas at which parts were divided;
- `Arguments.split_decides`: the cuts are the commas at depth zero, and division undoes joining;
- the number of arguments of a generic, which decides whether it is refused.

Does not own: what a type shows of itself to the division around it
(`TypeStub.Proofs.TypeExpr.Exposed`).
-/

namespace TypeStub

namespace Node

/-! ## Brackets along a node list -/

/-- What a node adds to the depth of square brackets. The inside of a group is not seen. -/
def bracketWeight : Node → Int
  | .token (.other '[') => 1
  | .token (.other ']') => -1
  | _ => 0

/-- The opening brackets among nodes less the closing ones. -/
def bracketExcess (nodes : List Node) : Int :=
  nodes.foldl (fun reached node => reached + bracketWeight node) 0

/-- The depth of brackets behind nodes. A closing bracket at depth zero leaves it at zero. -/
def bracketDepth (nodes : List Node) : Int :=
  nodes.foldl (fun reached node => max 0 (reached + bracketWeight node)) 0

/-- Truncated subtraction is what keeps the depth of the division from falling below zero. -/
theorem max_bracketWeight (reached : Nat) (node : Node) :
    max 0 (reached + bracketWeight node) = (Arguments.depthAfter reached node.token? : Int) := by
  unfold bracketWeight
  split
  · simp only [token?, Arguments.depthAfter]
    omega
  · simp only [token?, Arguments.depthAfter]
    omega
  · rename_i notOpening notClosing
    have unchanged : Arguments.depthAfter reached node.token? = reached := by
      unfold Arguments.depthAfter
      split
      · rename_i isOpening
        exact absurd (token?_eq_some.mp isOpening) notOpening
      · rename_i isClosing
        exact absurd (token?_eq_some.mp isClosing) notClosing
      · rfl
    omega

/-- The depth is the one that the division keeps. -/
theorem bracketDepth_eq (nodes : List Node) :
    bracketDepth nodes = Arguments.depthThrough token? 0 nodes :=
  List.foldl_hom (fun reached : Nat => (reached : Int)) max_bracketWeight

theorem bracketDepth_eq_zero_iff {nodes : List Node} :
    bracketDepth nodes = 0 ↔ Arguments.depthThrough token? 0 nodes = 0 := by
  rw [bracketDepth_eq]
  exact Int.natCast_eq_zero

theorem bracketExcess_append_singleton (nodes : List Node) (last : Node) :
    bracketExcess (nodes ++ [last]) = bracketExcess nodes + bracketWeight last := by
  simp [bracketExcess]

theorem bracketDepth_append_singleton (nodes : List Node) (last : Node) :
    bracketDepth (nodes ++ [last]) = max 0 (bracketDepth nodes + bracketWeight last) := by
  simp [bracketDepth]

/-- Where no closing bracket comes before its opening one, the depth is the excess. -/
theorem bracketDepth_eq_excess {nodes : List Node}
    (covered : ∀ front, front <+: nodes → 0 ≤ bracketExcess front) :
    bracketDepth nodes = bracketExcess nodes := by
  -- From the end, since both count from the front. What is known of the prefixes of the whole
  -- holds of those of the front, and for the last node the bound has no effect.
  induction nodes using List.reverseRecOn with
  | nil => rfl
  | append_singleton front last inductionHypothesis =>
      have ofFront : bracketDepth front = bracketExcess front :=
        inductionHypothesis fun part isPrefix =>
          covered part (isPrefix.trans (List.prefix_append front [last]))
      have ofWhole := covered (front ++ [last]) (List.prefix_refl _)
      rw [bracketExcess_append_singleton] at ofWhole
      rw [bracketDepth_append_singleton, bracketExcess_append_singleton, ofFront]
      omega

end Node

namespace Arguments

open Node (bracketDepth bracketDepth_eq_zero_iff bracketExcess readings)
open TypeExpr (joinArguments)

variable {α : Type}

/-! ## The places of cuts -/

/-- The places that the commas between neighbours have when parts are joined by commas. -/
def cutPlaces : List (List α) → List Nat
  | first :: second :: later =>
      first.length :: (cutPlaces (second :: later)).map (· + (first.length + 1))
  | _ => []

theorem cutPlaces_nil_cons {parts : List (List α)} (nonempty : parts ≠ []) :
    cutPlaces ([] :: parts) = 0 :: (cutPlaces parts).map Nat.succ := by
  obtain ⟨first, later, rfl⟩ := List.exists_cons_of_ne_nil nonempty
  simp [cutPlaces]

/-- An item added in front moves every cut by one place. -/
theorem cutPlaces_modifyHead (item : α) (parts : List (List α)) :
    cutPlaces (parts.modifyHead (item :: ·)) = (cutPlaces parts).map Nat.succ := by
  match parts with
  | [] => rfl
  | [_] => rfl
  | first :: second :: later =>
      simp only [List.modifyHead_cons, cutPlaces, List.length_cons, List.map_cons, List.map_map]
      exact congrArg _ (List.map_congr_left fun _ _ => rfl)

/-- There is one part more than there are cuts. -/
theorem length_eq_cutPlaces {parts : List (List α)} (nonempty : parts ≠ []) :
    parts.length = (cutPlaces parts).length + 1 := by
  induction parts with
  | nil => exact absurd rfl nonempty
  | cons first later inductionHypothesis =>
      cases later with
      | nil => rfl
      | cons second others =>
          have ofLater := inductionHypothesis (List.cons_ne_nil second others)
          simp only [cutPlaces, List.length_cons, List.length_map] at ofLater ⊢
          omega

/-! ## The places of commas at depth zero -/

/-- A comma stands at the place, at depth zero, given the depth before the items. -/
def isExposedFrom (token? : α → Option Token) (depth : Nat) (items : List α) (place : Nat) :
    Bool :=
  items[place]?.bind token? == some (.other ',') &&
    depthThrough token? depth (items.take place) == 0

theorem isExposedFrom_zero {token? : α → Option Token} {depth : Nat} {item : α} {rest : List α} :
    isExposedFrom token? depth (item :: rest) 0 = true ↔
      token? item = some (.other ',') ∧ depth = 0 := by
  simp [isExposedFrom]

theorem isExposedFrom_succ (token? : α → Option Token) (depth : Nat) (item : α) (rest : List α) :
    isExposedFrom token? depth (item :: rest) ∘ Nat.succ =
      isExposedFrom token? (depthAfter depth (token? item)) rest :=
  rfl

/-- The places of the commas at depth zero, in order. -/
def exposedPlaces (token? : α → Option Token) (depth : Nat) (items : List α) : List Nat :=
  (List.range items.length).filter (isExposedFrom token? depth items)

/-- Division cuts at the commas at depth zero and nowhere else. -/
theorem cutPlaces_splitFrom (token? : α → Option Token) (depth : Nat) (items : List α) :
    cutPlaces (splitFrom token? depth items) = exposedPlaces token? depth items := by
  -- Both sides look at the first item by itself, and their later places are those of `rest`, one
  -- further on and from the depth behind the item.
  induction items generalizing depth with
  | nil => rfl
  | cons item rest inductionHypothesis =>
      have later : exposedPlaces token? depth (item :: rest) =
          (if isExposedFrom token? depth (item :: rest) 0 then [0] else []) ++
            (exposedPlaces token? (depthAfter depth (token? item)) rest).map Nat.succ := by
        rw [exposedPlaces, List.length_cons, List.range_succ_eq_map, List.filter_cons,
          List.filter_map, isExposedFrom_succ, ← exposedPlaces]
        split <;> rfl
      rw [later, splitFrom]
      by_cases cut : token? item = some (.other ',') ∧ depth = 0
      · have level : depthAfter depth (token? item) = 0 := by
          rw [cut.1, depthAfter_comma]
          exact cut.2
        rw [if_pos cut, if_pos (isExposedFrom_zero.mpr cut), level,
          cutPlaces_nil_cons (splitFrom_ne_nil token? 0 rest), inductionHypothesis]
        rfl
      · rw [if_neg cut, if_neg (fun exposed => cut (isExposedFrom_zero.mp exposed)),
          cutPlaces_modifyHead, inductionHypothesis, List.nil_append]

/-- At the place stands a comma, at depth zero. -/
def IsExposed (nodes : List Node) (place : Nat) : Prop :=
  nodes[place]? = some (.token (.other ',')) ∧ bracketDepth (nodes.take place) = 0

theorem isExposed_iff {nodes : List Node} {place : Nat} :
    IsExposed nodes place ↔ isExposedFrom Node.token? 0 nodes place = true := by
  have isComma : nodes[place]? = some (.token (.other ',')) ↔
      nodes[place]?.bind Node.token? = some (.other ',') := by
    rw [Option.bind_eq_some_iff]
    simp [Node.token?_eq_some]
  rw [IsExposed, isComma, bracketDepth_eq_zero_iff, isExposedFrom, Bool.and_eq_true, beq_iff_eq,
    beq_iff_eq]

instance (nodes : List Node) : DecidablePred (IsExposed nodes) := fun _ =>
  decidable_of_iff _ isExposed_iff.symm

theorem IsExposed.lt_length {nodes : List Node} {place : Nat} (exposed : IsExposed nodes place) :
    place < nodes.length :=
  (List.getElem?_eq_some_iff.mp exposed.1).1

/-- The number of commas at depth zero. -/
def exposedCount (nodes : List Node) : Nat :=
  (List.range nodes.length).countP (IsExposed nodes ·)

theorem exposedPlaces_eq_filter (nodes : List Node) :
    exposedPlaces Node.token? 0 nodes = (List.range nodes.length).filter (IsExposed nodes ·) := by
  rw [exposedPlaces]
  refine List.filter_congr fun place _ => ?_
  rw [Bool.eq_iff_iff, decide_eq_true_eq, isExposed_iff]

theorem mem_cutPlaces_split {nodes : List Node} {place : Nat} :
    place ∈ cutPlaces (split Node.token? nodes) ↔ IsExposed nodes place := by
  rw [split, cutPlaces_splitFrom, exposedPlaces_eq_filter, List.mem_filter, List.mem_range,
    decide_eq_true_eq]
  exact and_iff_right_of_imp IsExposed.lt_length

/-- There is one argument more than there are commas at depth zero. -/
theorem length_split (nodes : List Node) :
    (split Node.token? nodes).length = exposedCount nodes + 1 := by
  rw [split, length_eq_cutPlaces (splitFrom_ne_nil Node.token? 0 nodes), cutPlaces_splitFrom,
    exposedPlaces_eq_filter, exposedCount, List.countP_eq_length_filter]

/-! ## Dividing what was joined -/

/-- The nodes make up one argument: no closing bracket comes before its opening one, none stays
open, and no comma is at depth zero. -/
structure IsArgument (nodes : List Node) : Prop where
  covered : ∀ front, front <+: nodes → 0 ≤ bracketExcess front
  even : bracketExcess nodes = 0
  unexposed : ∀ place, ¬ IsExposed nodes place

instance : DecidablePred IsArgument := fun nodes =>
  decidable_of_iff
    ((∀ front ∈ nodes.inits, 0 ≤ bracketExcess front) ∧ bracketExcess nodes = 0 ∧
      ∀ place < nodes.length, ¬ IsExposed nodes place)
    ⟨fun ⟨covered, even, unexposed⟩ =>
      ⟨fun front isPrefix => covered front ((List.mem_inits front nodes).mpr isPrefix), even,
        fun place exposed => unexposed place exposed.lt_length exposed⟩,
    fun ⟨covered, even, unexposed⟩ =>
      ⟨fun front member => covered front ((List.mem_inits front nodes).mp member), even,
        fun place _ => unexposed place⟩⟩

theorem IsArgument.isGuarded {nodes : List Node} (ofNodes : IsArgument nodes) :
    isGuarded Node.token? 0 nodes = true := by
  by_contra exposed
  obtain ⟨front, comma, back, rfl, isComma, -, level⟩ :=
    exists_cut_of_not_isGuarded (Bool.not_eq_true _ ▸ exposed)
  refine ofNodes.unexposed front.length ⟨?_, ?_⟩
  · simp [Node.token?_eq_some.mp isComma]
  · rw [List.take_left]
    exact bracketDepth_eq_zero_iff.mpr level

theorem IsArgument.depthThrough_eq_zero {nodes : List Node} (ofNodes : IsArgument nodes) :
    depthThrough Node.token? 0 nodes = 0 := by
  rw [← bracketDepth_eq_zero_iff, Node.bracketDepth_eq_excess ofNodes.covered]
  exact ofNodes.even

/-- Arguments that are joined by commas are found again. -/
theorem split_join {arguments : List (List Node)} (nonempty : arguments ≠ [])
    (ofArguments : ∀ argument ∈ arguments, IsArgument argument) :
    split Node.token? (joinArguments arguments) = arguments :=
  splitFrom_intercalate Node.token?_comma nonempty
    (fun argument member => (ofArguments argument member).isGuarded)
    fun argument member =>
      (ofArguments argument (List.dropLast_subset arguments member)).depthThrough_eq_zero

/-- Division loses nothing, since joining the arguments by commas gives the nodes back. It cuts
at the commas at depth zero and nowhere else, so there is one argument more than there are such
commas. Arguments joined by commas are found again. The reader divides groups in this way. -/
theorem split_decides (nodes : List Node) (place : Nat) (arguments : List (List Node)) :
    joinArguments (split Node.token? nodes) = nodes ∧
      (place ∈ cutPlaces (split Node.token? nodes) ↔ IsExposed nodes place) ∧
      (split Node.token? nodes).length = exposedCount nodes + 1 ∧
      (arguments ≠ [] → (∀ argument ∈ arguments, IsArgument argument) →
        split Node.token? (joinArguments arguments) = arguments) ∧
      split Reading.token? (readings nodes) = (split Node.token? nodes).map readings :=
  ⟨Node.intercalate_split nodes, mem_cutPlaces_split, length_split nodes, split_join,
    Sequence.split_readings nodes⟩

/-- A bracket closed at depth zero hides no comma behind it. -/
def strayBracket : List Node :=
  [.token (.other ']'), .token (.other ','), .token (.word ['a']), .token (.other '['),
    .token (.word ['b']), .token (.other ','), .token (.word ['c']), .token (.other ']'),
    .token (.other ','), .group [.token (.word ['d']), .token (.other ',')]]

/-- Arguments with a comma in brackets, without any node, and with a comma in parentheses. -/
def hiddenCommas : List (List Node) :=
  [[.token (.word ['a']), .token (.other '['), .token (.other ','), .token (.other ']')], [],
    [.group [.token (.other ','), .token (.other '[')]]]

theorem split_decides_strayBracket :
    (hiddenCommas ≠ [] ∧ ∀ argument ∈ hiddenCommas, IsArgument argument) ∧
      split Node.token? (joinArguments hiddenCommas) = hiddenCommas ∧
      8 ∈ cutPlaces (split Node.token? strayBracket) ∧
      (split Node.token? strayBracket).length = 3 := by
  have nonempty : hiddenCommas ≠ [] := List.cons_ne_nil _ _
  have ofArguments : ∀ argument ∈ hiddenCommas, IsArgument argument := by decide
  obtain ⟨-, isCut, count, found, -⟩ := split_decides strayBracket 8 hiddenCommas
  exact ⟨⟨nonempty, ofArguments⟩, found nonempty ofArguments, isCut.mpr (by decide),
    count.trans (by decide)⟩

end Arguments

/-! ## The number of arguments of a generic -/

theorem Generic.takes_succ_iff {ctor : Generic} {count : Nat} :
    ctor.takes (count + 1) = true ↔ ctor = .tuple ∨ count = 0 := by
  cases ctor <;> simp [Generic.takes]

namespace Sequence

open Arguments (exposedCount)
open Node (readings)

theorem length_of_readArguments {nodes : List Node} {found : Resolved (List TypeExpr)}
    (accepted : readArguments (readings nodes) = .ok found) :
    found.value.length = exposedCount nodes + 1 := by
  rw [readArguments, split_readings, Outcome.map_eq_ok_iff] at accepted
  obtain ⟨results, steps, rfl⟩ := accepted
  have sameLength := (Outcome.mapM_eq_ok_iff.mp steps).length_eq
  rw [List.length_map, Arguments.length_split] at sameLength
  rw [Resolved.all, List.length_map, sameLength]

/-- An iterator or a list on arguments that can all be read is refused if a comma at depth zero
stands in its group, and the refusal reports one argument more than there are such commas. A
tuple is never refused. -/
theorem alternative_generic {word : List Char} {ctor : Generic} {inner : List Node}
    {found : Resolved (List TypeExpr)} (named : Generic.ofDocName? (String.ofList word) = some ctor)
    (accepted : readArguments (readings inner) = .ok found) :
    alternative (readings [.token (.word word), .group inner]) =
      if ctor = .tuple ∨ exposedCount inner = 0 then
        .ok ⟨.generic ctor found.value,
          if ctor = .iter then found.namespaces.insert "typing" else found.namespaces⟩
      else .error (.argumentCount ctor (exposedCount inner + 1)) := by
  change ofGeneric word (readArguments (readings inner)) = _
  rw [accepted, ofGeneric, named]
  simp only [length_of_readArguments accepted, Generic.takes_succ_iff]

/-- Commas in square brackets do not count as arguments of the list. -/
example : TypeExpr.parse "list(typing.Dict[str, int], str)" =
    .error ⟨"list(typing.Dict[str, int], str)", .argumentCount .list 2⟩ := by
  cbv

end Sequence

end TypeStub
