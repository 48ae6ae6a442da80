import TypeStub.Proofs.TypeExpr.Shape

/-!
Contract: the grammar of value expressions over lexemes, and the reader that decides it.

Owns:
- `Value.Spells`, the grammar: an atom, then argument lists in brackets, each with at least
  one argument and perhaps a comma behind the last;
- `read_eq_ok_iff`, which says that the reader accepts what the grammar derives, with the
  tree of the derivation and its namespaces.

The reader keeps open argument lists as frames. What carries both directions is that the
frames below an expression do not matter while it is read (`operand_append`).
-/

namespace TypeStub.Value

open Malformed (Reason)

/-- A comma between neighbours. -/
def joinLexemes (parts : List (List Lexeme)) : List Lexeme :=
  [Lexeme.mark .comma].intercalate parts

theorem joinLexemes_singleton (only : List Lexeme) : joinLexemes [only] = only := by
  rw [joinLexemes, List.intercalate_singleton]

theorem joinLexemes_cons (first : List Lexeme) {later : List (List Lexeme)}
    (nonempty : later ≠ []) :
    joinLexemes (first :: later) = first ++ .mark .comma :: joinLexemes later := by
  obtain ⟨second, others, rfl⟩ := List.exists_cons_of_ne_nil nonempty
  simp [joinLexemes, List.intercalate_cons_cons]

/-- The comma that may stand behind the last argument. -/
def trailingComma (present : Bool) : List Lexeme :=
  if present then [.mark .comma] else []

/-- The lexemes spell the expression. Argument lists on one atom nest to the left. -/
inductive Spells : List Lexeme → TypeExpr → Prop
  | name {text : List Char} (complete : Dotted.isComplete text = true) :
      Spells [.identifier text] (.name (String.ofList text))
  | literal {text : List Char} : Spells [.literal text] (.literal (String.ofList text))
  | subscript {front : List Lexeme} {base : TypeExpr}
      {arguments : List (List Lexeme × TypeExpr)} (trailing : Bool) (ofBase : Spells front base)
      (nonempty : arguments ≠ []) (ofArguments : ∀ entry ∈ arguments, Spells entry.1 entry.2) :
      Spells
        (front ++ .mark .openBracket ::
          (joinLexemes (arguments.map Prod.fst) ++
            (trailingComma trailing ++ [.mark .closeBracket])))
        (.subscript base (arguments.map Prod.snd))

/-- An expression begins with its atom, never with a mark. -/
theorem Spells.exists_atom {lexemes : List Lexeme} {e : TypeExpr} (spelled : Spells lexemes e) :
    ∃ atom rest, lexemes = atom :: rest ∧ ∀ mark, atom ≠ .mark mark := by
  induction spelled with
  | @name text complete => exact ⟨.identifier text, [], rfl, by simp⟩
  | @literal text => exact ⟨.literal text, [], rfl, by simp⟩
  | subscript trailing ofBase nonempty ofArguments baseHypothesis inductionHypothesis =>
      obtain ⟨atom, rest, begins, notMark⟩ := baseHypothesis
      exact ⟨atom, _, by rw [begins, List.cons_append], notMark⟩

/-! ## Whatever the grammar derives is read -/

theorem suffix_comma {frame : Frame} {outer : List Frame} {found : NameSet} {e : TypeExpr}
    {rest : List Lexeme} (more : rest.head? ≠ some (.mark .closeBracket)) :
    suffix (frame :: outer) found e (.mark .comma :: rest) =
      operand (⟨frame.base, e :: frame.earlier⟩ :: outer) found rest := by
  rw [suffix]
  intro later isClose
  exact more (by rw [isClose]; rfl)

/-- The last argument of a list, its bracket, and perhaps a comma between them. -/
private theorem suffix_last (frame : Frame) (outer : List Frame) (found : NameSet)
    (e : TypeExpr) (trailing : Bool) (rest : List Lexeme) :
    suffix (frame :: outer) found e
        (trailingComma trailing ++ .mark .closeBracket :: rest) =
      suffix outer found (frame.close e) rest := by
  cases trailing <;> simp [trailingComma, suffix]

/-- Arguments that are read one by one make up the argument list of the frame. -/
private theorem operand_arguments {arguments : List (List Lexeme × TypeExpr)}
    (nonempty : arguments ≠ []) (spelled : ∀ entry ∈ arguments, Spells entry.1 entry.2)
    (single : ∀ entry ∈ arguments, ∀ (frames : List Frame) (found : NameSet)
      (rest : List Lexeme), operand frames found (entry.1 ++ rest) =
        suffix frames (found ∪ entry.2.namespaces) entry.2 rest)
    (frame : Frame) (outer : List Frame) (found : NameSet) (trailing : Bool)
    (rest : List Lexeme) :
    operand (frame :: outer) found
        (joinLexemes (arguments.map Prod.fst) ++
          (trailingComma trailing ++ .mark .closeBracket :: rest)) =
      suffix outer (found ∪ TypeExpr.namespacesOfAll (arguments.map Prod.snd))
        (.subscript frame.base (frame.earlier.reverse ++ arguments.map Prod.snd)) rest := by
  induction arguments generalizing frame found with
  | nil => exact absurd rfl nonempty
  | cons head tail inductionHypothesis =>
      have headRead := single head List.mem_cons_self
      cases tail with
      | nil =>
          rw [List.map_singleton, joinLexemes_singleton, headRead, suffix_last]
          simp [TypeExpr.namespacesOfAll, Frame.close]
      | cons second others =>
          have ofTail := inductionHypothesis (List.cons_ne_nil second others)
            (fun entry member => spelled entry (List.mem_cons_of_mem head member))
            (fun entry member => single entry (List.mem_cons_of_mem head member))
          obtain ⟨atom, later, begins, notMark⟩ :=
            (spelled second (by simp)).exists_atom
          have more : (joinLexemes ((second :: others).map Prod.fst) ++
              (trailingComma trailing ++ .mark .closeBracket :: rest)).head? ≠
                some (.mark .closeBracket) := by
            have front : ∃ further, joinLexemes ((second :: others).map Prod.fst) =
                atom :: further := by
              cases others <;> simp [joinLexemes, begins, List.intercalate_cons_cons]
            obtain ⟨further, front⟩ := front
            rw [front, List.cons_append, List.head?_cons]
            exact fun isClose => notMark _ (Option.some.inj isClose)
          rw [List.map_cons, joinLexemes_cons head.1 (by simp), List.append_assoc,
            List.cons_append, headRead, suffix_comma more, ofTail]
          simp [TypeExpr.namespacesOfAll, NameSet.union_assoc]

/-- Reading passes over a spelled expression: the open argument lists stay as they are, and
the namespaces of the expression are added. -/
theorem operand_append {lexemes : List Lexeme} {e : TypeExpr} (spelled : Spells lexemes e)
    (frames : List Frame) (found : NameSet) (rest : List Lexeme) :
    operand frames found (lexemes ++ rest) = suffix frames (found ∪ e.namespaces) e rest := by
  induction spelled generalizing frames found rest with
  | @name text complete =>
      rw [List.singleton_append, operand, if_pos complete, TypeExpr.namespaces,
        String.toList_ofList]
  | literal =>
      rw [List.singleton_append, operand, TypeExpr.namespaces, NameSet.union_empty]
  | @subscript front base arguments trailing ofBase nonempty ofArguments baseHypothesis
      inductionHypothesis =>
      rw [List.append_assoc, baseHypothesis, List.cons_append, suffix, List.append_assoc,
        List.append_assoc, List.singleton_append,
        operand_arguments nonempty ofArguments inductionHypothesis, TypeExpr.namespaces,
        NameSet.union_assoc]
      rfl

/-! ## Whatever is read is derived -/

/-- A reading that succeeds from here begins with a spelled expression, behind which no
argument list opens. -/
private def BeginsSpelled (lexemes : List Lexeme) : Prop :=
  ∀ frames found result, operand frames found lexemes = .ok result →
    ∃ front e rest, lexemes = front ++ rest ∧ Spells front e ∧
      rest.head? ≠ some (.mark .openBracket)

/-- Inside an open argument list, a reading that succeeds reaches the bracket that closes
the list. -/
private theorem exists_arguments {bound : Nat}
    (shorter : ∀ lexemes : List Lexeme, lexemes.length < bound → BeginsSpelled lexemes)
    {lexemes : List Lexeme} (small : lexemes.length < bound) {frame : Frame}
    {outer : List Frame} {found : NameSet} {result : Resolved TypeExpr}
    (read : operand (frame :: outer) found lexemes = .ok result) :
    ∃ arguments trailing rest,
      lexemes = joinLexemes (arguments.map Prod.fst) ++
        (trailingComma trailing ++ .mark .closeBracket :: rest) ∧
      arguments ≠ [] ∧ ∀ entry ∈ arguments, Spells entry.1 entry.2 := by
  induction h : lexemes.length using Nat.strongRecOn generalizing lexemes frame found with
  | ind size inductionHypothesis =>
      obtain ⟨front, e, rest, split, spelled, notOpening⟩ := shorter lexemes small _ _ _ read
      subst split
      rw [operand_append spelled] at read
      match rest, read, notOpening with
      | [], read, _ => simp [suffix] at read
      | .identifier _ :: _, read, _ => simp [suffix] at read
      | .literal _ :: _, read, _ => simp [suffix] at read
      | .mark .openBracket :: _, _, notOpening => exact absurd rfl notOpening
      | .mark .closeBracket :: later, _, _ =>
          refine ⟨[(front, e)], false, later, ?_, by simp, by simpa using spelled⟩
          simp [joinLexemes, trailingComma]
      | .mark .comma :: later, read, _ =>
          by_cases closes : later.head? = some (.mark .closeBracket)
          · obtain ⟨further, begins⟩ := List.head?_eq_some_iff.mp closes
            refine ⟨[(front, e)], true, further, ?_, by simp, by simpa using spelled⟩
            simp [joinLexemes, trailingComma, begins]
          · -- Another argument follows, and what is left from there on is shorter.
            rw [suffix_comma closes] at read
            have smaller : later.length < size := by
              rw [← h]
              simp only [List.length_append, List.length_cons]
              omega
            obtain ⟨arguments, trailing, rest, split, nonempty, ofArguments⟩ :=
              inductionHypothesis later.length smaller (by omega) read rfl
            refine ⟨(front, e) :: arguments, trailing, rest, ?_, by simp, ?_⟩
            · rw [split, List.map_cons, joinLexemes_cons front (by simpa using nonempty)]
              simp
            · intro entry member
              rcases List.mem_cons.mp member with rfl | member
              · exact spelled
              · exact ofArguments entry member

/-- Behind a spelled expression, a reading that succeeds takes all argument lists on it. -/
private theorem exists_suffixes {bound : Nat}
    (shorter : ∀ lexemes : List Lexeme, lexemes.length < bound → BeginsSpelled lexemes)
    {front lexemes : List Lexeme} (small : lexemes.length ≤ bound) {e : TypeExpr}
    (spelled : Spells front e) {frames : List Frame} {found : NameSet}
    {result : Resolved TypeExpr} (read : suffix frames found e lexemes = .ok result) :
    ∃ middle whole rest, lexemes = middle ++ rest ∧ Spells (front ++ middle) whole ∧
      rest.head? ≠ some (.mark .openBracket) := by
  induction h : lexemes.length using Nat.strongRecOn generalizing front lexemes e found with
  | ind size inductionHypothesis =>
      by_cases opens : lexemes.head? = some (.mark .openBracket)
      · obtain ⟨inner, begins⟩ := List.head?_eq_some_iff.mp opens
        subst begins
        rw [suffix] at read
        rw [List.length_cons] at h small
        obtain ⟨arguments, trailing, rest, split, nonempty, ofArguments⟩ :=
          exists_arguments shorter (by omega) read
        rw [split, operand_arguments nonempty ofArguments
          (fun entry member => operand_append (ofArguments entry member))] at read
        have subscripted := Spells.subscript trailing spelled nonempty ofArguments
        have smaller : rest.length < size := by
          rw [← h, split]
          simp only [List.length_append, List.length_cons]
          omega
        obtain ⟨middle, whole, later, rested, ofWhole, ends⟩ :=
          inductionHypothesis rest.length smaller (by omega) subscripted read rfl
        refine ⟨.mark .openBracket :: (joinLexemes (arguments.map Prod.fst) ++
          (trailingComma trailing ++ .mark .closeBracket :: middle)), whole, later, ?_, ?_, ends⟩
        · rw [split, rested]
          simp
        · simpa using ofWhole
      · exact ⟨[], e, lexemes, rfl, by simpa using spelled, opens⟩

private theorem beginsSpelled (lexemes : List Lexeme) : BeginsSpelled lexemes := by
  -- The reader keeps open lists in frames while the grammar nests, so the induction is on the
  -- length of what is left to read and not on the frames.
  induction h : lexemes.length using Nat.strongRecOn generalizing lexemes with
  | ind size inductionHypothesis =>
      have shorter : ∀ other : List Lexeme, other.length < size → BeginsSpelled other :=
        fun other small => inductionHypothesis other.length small other rfl
      intro frames found result read
      match lexemes, h, read with
      | [], _, read => simp [operand] at read
      | .mark _ :: _, _, read => simp [operand] at read
      | .identifier text :: rest, h, read =>
          rw [operand] at read
          split at read
          · rename_i complete
            obtain ⟨middle, whole, later, split, spelled, ends⟩ :=
              exists_suffixes shorter (by rw [← h]; simp) (.name complete) read
            exact ⟨.identifier text :: middle, whole, later, by rw [split]; rfl, spelled, ends⟩
          · cases read
      | .literal text :: rest, h, read =>
          rw [operand] at read
          obtain ⟨middle, whole, later, split, spelled, ends⟩ :=
            exists_suffixes shorter (by rw [← h]; simp) (@Spells.literal text) read
          exact ⟨.literal text :: middle, whole, later, by rw [split]; rfl, spelled, ends⟩

/-- The reader accepts exactly the lexeme lists that the grammar derives. It gives the tree
of the derivation with the namespaces of the tree. -/
theorem read_eq_ok_iff {lexemes : List Lexeme} {result : Resolved TypeExpr} :
    read lexemes = .ok result ↔
      Spells lexemes result.value ∧ result.namespaces = result.value.namespaces := by
  constructor
  · intro accepted
    obtain ⟨front, e, rest, split, spelled, notOpening⟩ :=
      beginsSpelled lexemes [] ∅ result accepted
    subst split
    rw [read, operand_append spelled, NameSet.empty_union] at accepted
    match rest, accepted, notOpening with
    | [], accepted, _ =>
        cases accepted
        exact ⟨by simpa using spelled, rfl⟩
    | .identifier _ :: _, accepted, _ => simp [suffix] at accepted
    | .literal _ :: _, accepted, _ => simp [suffix] at accepted
    | .mark .openBracket :: _, _, notOpening => exact absurd rfl notOpening
    | .mark .closeBracket :: _, accepted, _ => simp [suffix] at accepted
    | .mark .comma :: [], accepted, _ => simp [suffix] at accepted
    | .mark .comma :: .mark .closeBracket :: _, accepted, _ => simp [suffix] at accepted
    | .mark .comma :: .mark .openBracket :: _, accepted, _ => simp [suffix] at accepted
    | .mark .comma :: .mark .comma :: _, accepted, _ => simp [suffix] at accepted
    | .mark .comma :: .identifier _ :: _, accepted, _ => simp [suffix] at accepted
    | .mark .comma :: .literal _ :: _, accepted, _ => simp [suffix] at accepted
  · rintro ⟨spelled, same⟩
    have passed := operand_append spelled [] ∅ []
    rw [List.append_nil, NameSet.empty_union] at passed
    rw [read, passed]
    simp [suffix, ← same]

end TypeStub.Value
