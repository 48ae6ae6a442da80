import TypeStub.TypeExpr.Node

/-!
Contract: grouping by parentheses and division at commas, as inverses of writing.

Owns:
- `Node.IsGrouped`, nodes without a parenthesis among their tokens;
- grouping of what such nodes are written as, and writing of what was grouped;
- the bracket depth along a list of items, and where `Arguments.split` divides it.
-/

namespace TypeStub

open Malformed (Reason)

namespace Node

/-- Induction with a hypothesis for each node of a group. -/
@[elab_as_elim, induction_eliminator]
theorem inductionOnMembers {motive : Node → Prop} (token : ∀ single, motive (.token single))
    (group : ∀ inner, (∀ node ∈ inner, motive node) → motive (.group inner)) :
    ∀ node, motive node
  | .token single => token single
  | .group inner => group inner fun node _ => inductionOnMembers token group node

/-- No token in the node is a parenthesis: parentheses only occur as groups. -/
inductive IsGrouped : Node → Prop
  | token {single : Token} (notOpening : single ≠ .opening) (notClosing : single ≠ .closing) :
      IsGrouped (.token single)
  | group {inner : List Node} (ofInner : ∀ node ∈ inner, IsGrouped node) :
      IsGrouped (.group inner)

theorem flattenAll_append (left right : List Node) :
    flattenAll (left ++ right) = flattenAll left ++ flattenAll right := by
  induction left with
  | nil => rfl
  | cons head tail inductionHypothesis => simp [flattenAll, inductionHypothesis]

theorem flattenAll_map_token (tokens : List Token) :
    flattenAll (tokens.map Node.token) = tokens := by
  induction tokens with
  | nil => rfl
  | cons head tail inductionHypothesis => simp [flattenAll, flatten, inductionHypothesis]

theorem mem_flattenAll {token : Token} {nodes : List Node} :
    token ∈ flattenAll nodes ↔ ∃ node ∈ nodes, token ∈ flatten node := by
  induction nodes with
  | nil => simp [flattenAll]
  | cons head tail inductionHypothesis => simp [flattenAll, inductionHypothesis]

/-! ## Grouping what was written -/

/-- Grouping passes over the written form of nodes and has them as the latest nodes of the
innermost group. -/
private theorem close_flatten (nodes : List Node) (outer : List (List Node)) (current : List Node)
    (rest : List Token)
    (single : ∀ node ∈ nodes, ∀ (outer : List (List Node)) (current : List Node)
      (rest : List Token),
        close outer current (flatten node ++ rest) = close outer (node :: current) rest) :
    close outer current (flattenAll nodes ++ rest) =
      close outer (nodes.reverse ++ current) rest := by
  induction nodes generalizing current with
  | nil => rfl
  | cons head tail inductionHypothesis =>
      rw [flattenAll, List.append_assoc, single head List.mem_cons_self,
        inductionHypothesis (head :: current) fun node member =>
          single node (List.mem_cons_of_mem head member)]
      simp

private theorem close_single {node : Node} (grouped : IsGrouped node)
    (outer : List (List Node)) (current : List Node) (rest : List Token) :
    close outer current (flatten node ++ rest) = close outer (node :: current) rest := by
  induction grouped generalizing outer current rest with
  | @token single notOpening notClosing =>
      rw [flatten, List.singleton_append, close]
      · exact notOpening
      · exact notClosing
  | @group inner ofInner inductionHypothesis =>
      rw [flatten, List.cons_append, close, List.append_assoc,
        close_flatten inner _ _ _ inductionHypothesis]
      simp [close]

/-- Grouping the written form of grouped nodes gives the nodes back. -/
theorem ofTokens_flattenAll {nodes : List Node} (grouped : ∀ node ∈ nodes, IsGrouped node) :
    ofTokens (flattenAll nodes) = .ok nodes := by
  have passed := close_flatten nodes [] [] [] fun node member => close_single (grouped node member)
  rw [List.append_nil] at passed
  rw [ofTokens, passed]
  simp [close]

/-! ## Writing what was grouped -/

/-- The tokens that grouping has passed: those of the outer groups, each left open, and then
those of the innermost one. -/
private def passedTokens : List (List Node) → List Node → List Token
  | [], current => flattenAll current.reverse
  | parent :: further, current =>
      passedTokens further parent ++ .opening :: flattenAll current.reverse

private theorem passedTokens_cons (outer : List (List Node)) (current : List Node) (node : Node) :
    passedTokens outer (node :: current) = passedTokens outer current ++ flatten node := by
  cases outer <;> simp [passedTokens, flattenAll_append, flattenAll]

private theorem close_passed {tokens : List Token} {outer : List (List Node)}
    {current nodes : List Node} (outerGrouped : ∀ level ∈ outer, ∀ node ∈ level, IsGrouped node)
    (currentGrouped : ∀ node ∈ current, IsGrouped node)
    (closed : close outer current tokens = .ok nodes) :
    flattenAll nodes = passedTokens outer current ++ tokens ∧
      ∀ node ∈ nodes, IsGrouped node := by
  -- Each step moves a token to the passed ones, so that together with the rest they stay the
  -- same; a closing token makes a node of the innermost group.
  induction tokens generalizing outer current with
  | nil =>
      cases outer with
      | nil =>
          cases closed
          simpa [passedTokens] using currentGrouped
      | cons parent further => cases closed
  | cons token rest inductionHypothesis =>
      by_cases opens : token = .opening
      · subst opens
        obtain ⟨written, grouped⟩ := @inductionHypothesis (current :: outer) []
          (by
            intro level member
            rcases List.mem_cons.mp member with rfl | member
            · exact currentGrouped
            · exact outerGrouped level member)
          (by simp) closed
        exact ⟨by simpa [passedTokens, flattenAll] using written, grouped⟩
      by_cases closes : token = .closing
      · subst closes
        cases outer with
        | nil => cases closed
        | cons parent further =>
            obtain ⟨written, grouped⟩ := @inductionHypothesis further
              (.group current.reverse :: parent)
              (fun level member => outerGrouped level (List.mem_cons_of_mem parent member))
              (by
                intro node member
                rcases List.mem_cons.mp member with rfl | member
                · exact .group fun inner inside => currentGrouped inner (List.mem_reverse.mp inside)
                · exact outerGrouped parent List.mem_cons_self node member)
              closed
            refine ⟨?_, grouped⟩
            rw [written, passedTokens_cons]
            simp [passedTokens, flatten]
      · rw [close] at closed
        · obtain ⟨written, grouped⟩ := inductionHypothesis outerGrouped
            (by
              intro node member
              rcases List.mem_cons.mp member with rfl | member
              · exact .token opens closes
              · exact currentGrouped node member)
            closed
          refine ⟨?_, grouped⟩
          rw [written, passedTokens_cons]
          simp [flatten]
        · exact opens
        · exact closes

/-- Nodes that tokens were grouped to are grouped, and they are written as the tokens. -/
theorem flattenAll_of_ofTokens {tokens : List Token} {nodes : List Node}
    (closed : ofTokens tokens = .ok nodes) :
    flattenAll nodes = tokens ∧ ∀ node ∈ nodes, IsGrouped node := by
  have passed := close_passed (by simp) (by simp) closed
  simpa [passedTokens, flattenAll] using passed

end Node

/-! ## Division at commas -/

namespace Arguments

variable {α β : Type}

/-- The bracket depth after items, from the depth before them. -/
def depthThrough (token? : α → Option Token) (depth : Nat) (items : List α) : Nat :=
  items.foldl (fun reached item => depthAfter reached (token? item)) depth

/-- No comma among the items stands at bracket depth zero, given the depth before them. -/
def isGuarded (token? : α → Option Token) (depth : Nat) : List α → Bool
  | [] => true
  | item :: rest =>
      (decide (token? item ≠ some (.other ',')) || decide (0 < depth)) &&
        isGuarded token? (depthAfter depth (token? item)) rest

theorem depthAfter_comma (depth : Nat) : depthAfter depth (some (.other ',')) = depth :=
  rfl

@[simp] theorem depthThrough_nil (token? : α → Option Token) (depth : Nat) :
    depthThrough token? depth [] = depth :=
  rfl

@[simp] theorem depthThrough_cons (token? : α → Option Token) (depth : Nat) (item : α)
    (rest : List α) :
    depthThrough token? depth (item :: rest) =
      depthThrough token? (depthAfter depth (token? item)) rest :=
  rfl

theorem depthThrough_append (token? : α → Option Token) (depth : Nat) (left right : List α) :
    depthThrough token? depth (left ++ right) =
      depthThrough token? (depthThrough token? depth left) right :=
  List.foldl_append

theorem isGuarded_append (token? : α → Option Token) (depth : Nat) (left right : List α) :
    isGuarded token? depth (left ++ right) =
      (isGuarded token? depth left && isGuarded token? (depthThrough token? depth left) right) := by
  induction left generalizing depth with
  | nil => simp [isGuarded]
  | cons item rest inductionHypothesis => simp [isGuarded, inductionHypothesis, Bool.and_assoc]

theorem splitFrom_ne_nil (token? : α → Option Token) (depth : Nat) (items : List α) :
    splitFrom token? depth items ≠ [] := by
  induction items generalizing depth with
  | nil => simp [splitFrom]
  | cons item rest inductionHypothesis =>
      unfold splitFrom
      split
      · simp
      · simpa using inductionHypothesis _

/-- Items without a comma at depth zero all belong to the first argument. -/
theorem splitFrom_append {token? : α → Option Token} {depth : Nat} {front : List α}
    (guarded : isGuarded token? depth front = true) (back : List α) :
    splitFrom token? depth (front ++ back) =
      (splitFrom token? (depthThrough token? depth front) back).modifyHead (front ++ ·) := by
  induction front generalizing depth with
  | nil =>
      obtain ⟨first, later, divided⟩ :=
        List.exists_cons_of_ne_nil (splitFrom_ne_nil token? depth back)
      simp [divided]
  | cons item later inductionHypothesis =>
      simp only [isGuarded, Bool.and_eq_true, Bool.or_eq_true, decide_eq_true_eq] at guarded
      obtain ⟨noCut, laterGuarded⟩ := guarded
      have stays : ¬ (token? item = some (.other ',') ∧ depth = 0) := by
        rintro ⟨itemIsComma, atZero⟩
        rcases noCut with notComma | deep
        · exact notComma itemIsComma
        · omega
      rw [List.cons_append, splitFrom, if_neg stays, inductionHypothesis laterGuarded,
        List.modifyHead_modifyHead]
      rfl

theorem splitFrom_of_isGuarded {token? : α → Option Token} {depth : Nat} {items : List α}
    (guarded : isGuarded token? depth items = true) : splitFrom token? depth items = [items] := by
  have divided := splitFrom_append guarded []
  rw [List.append_nil] at divided
  rw [divided, splitFrom, List.modifyHead_cons, List.append_nil]

/-- Items without a comma at depth zero that leave no bracket open are divided off by the
comma after them. -/
theorem splitFrom_append_comma {token? : α → Option Token} {depth : Nat} {front : List α}
    {comma : α} (isComma : token? comma = some (.other ','))
    (guarded : isGuarded token? depth front = true)
    (level : depthThrough token? depth front = 0) (rest : List α) :
    splitFrom token? depth (front ++ comma :: rest) = front :: splitFrom token? 0 rest := by
  rw [splitFrom_append guarded, level, splitFrom, if_pos ⟨isComma, rfl⟩, List.modifyHead_cons,
    List.append_nil]

/-- Parts without a comma at depth zero of which only the last may leave a bracket open are
divided where they were joined. -/
theorem splitFrom_intercalate {token? : α → Option Token} {comma : α}
    (isComma : token? comma = some (.other ',')) {parts : List (List α)} (nonempty : parts ≠ [])
    (guarded : ∀ part ∈ parts, isGuarded token? 0 part = true)
    (level : ∀ part ∈ parts.dropLast, depthThrough token? 0 part = 0) :
    splitFrom token? 0 ([comma].intercalate parts) = parts := by
  induction parts with
  | nil => exact absurd rfl nonempty
  | cons head tail inductionHypothesis =>
      have headGuarded := guarded head List.mem_cons_self
      cases tail with
      | nil =>
          rw [List.intercalate_singleton]
          exact splitFrom_of_isGuarded headGuarded
      | cons second others =>
          have ofTail := inductionHypothesis (List.cons_ne_nil second others)
            (fun part member => guarded part (List.mem_cons_of_mem head member))
            fun part member => level part (List.mem_cons_of_mem head member)
          rw [List.intercalate_cons_cons, List.append_assoc, List.singleton_append,
            splitFrom_append_comma isComma headGuarded (level head List.mem_cons_self), ofTail]

/-- Where a comma stands at depth zero, there is a first one. -/
theorem exists_cut_of_not_isGuarded {token? : α → Option Token} {depth : Nat} {items : List α}
    (exposed : isGuarded token? depth items = false) :
    ∃ front comma back, items = front ++ comma :: back ∧ token? comma = some (.other ',') ∧
      isGuarded token? depth front = true ∧ depthThrough token? depth front = 0 := by
  induction items generalizing depth with
  | nil => cases exposed
  | cons item rest inductionHypothesis =>
      by_cases cut : token? item = some (.other ',') ∧ depth = 0
      · exact ⟨[], item, rest, rfl, cut.1, rfl, cut.2⟩
      · have stays : (decide (token? item ≠ some (.other ',')) || decide (0 < depth)) = true := by
          rw [Bool.or_eq_true, decide_eq_true_eq, decide_eq_true_eq]
          by_cases isComma : token? item = some (.other ',')
          · exact .inr (Nat.pos_of_ne_zero fun atZero => cut ⟨isComma, atZero⟩)
          · exact .inl isComma
        rw [isGuarded, stays, Bool.true_and] at exposed
        obtain ⟨front, comma, back, split, isComma, guarded, level⟩ := inductionHypothesis exposed
        refine ⟨item :: front, comma, back, by rw [split]; rfl, isComma, ?_, level⟩
        rw [isGuarded, stays, guarded]
        rfl

theorem splitFrom_map (token? : β → Option Token) (f : α → β) (depth : Nat) (items : List α) :
    splitFrom token? depth (items.map f) =
      (splitFrom (token? ∘ f) depth items).map (List.map f) := by
  induction items generalizing depth with
  | nil => rfl
  | cons item rest inductionHypothesis =>
      simp only [List.map_cons, splitFrom, Function.comp_apply, inductionHypothesis]
      split
      · rfl
      · cases splitFrom (token? ∘ f) (depthAfter depth (token? (f item))) rest <;> rfl

/-- The divided items with commas between neighbours are the items. -/
theorem intercalate_splitFrom {token? : α → Option Token} {comma : α}
    (onlyComma : ∀ item, token? item = some (.other ',') → item = comma) (depth : Nat)
    (items : List α) : [comma].intercalate (splitFrom token? depth items) = items := by
  induction items generalizing depth with
  | nil => rfl
  | cons item rest inductionHypothesis =>
      obtain ⟨first, later, divided⟩ :=
        List.exists_cons_of_ne_nil (splitFrom_ne_nil token? (depthAfter depth (token? item)) rest)
      have restored := inductionHypothesis (depthAfter depth (token? item))
      rw [divided] at restored
      rw [splitFrom]
      split
      · rename_i cut
        have level : depthAfter depth (token? item) = 0 := by
          rw [cut.1, depthAfter_comma]
          exact cut.2
        rw [level] at divided
        rw [divided, List.intercalate_cons_cons, restored, onlyComma item cut.1]
        rfl
      · rw [divided]
        cases later with
        | nil =>
            rw [List.intercalate_singleton] at restored
            simp [restored]
        | cons second others =>
            rw [List.intercalate_cons_cons] at restored
            rw [List.modifyHead_cons, List.intercalate_cons_cons, ← restored]
            rfl

end Arguments

end TypeStub
