import Mathlib.Data.List.Nodup
import TypeStub.Signature

/-!
Contract: what a parameter list is that validation accepts, and what it says of any other.

Owns:
- `ParameterKind.Precedes`, which kinds may stand anywhere to the left of which;
- `Signature.validate_eq_ok_iff`, that the comparison of neighbours decides this for all pairs;
- `Signature.IsValid` and `Signature.Breaks`, the conditions on a list as a whole and what is
  wrong with a parameter behind a list that meets them;
- `Signature.validate_decides`, that validation decides the former and reports the latter.
-/

namespace TypeStub

/-! ## Kinds in order -/

/-- A parameter of the kind `left` may stand before one of the kind `right`. -/
def ParameterKind.Precedes (left right : ParameterKind) : Prop :=
  left.rank < right.rank ∨ (left = right ∧ left.isVariadic = false)

instance (left right : ParameterKind) : Decidable (left.Precedes right) := by
  unfold ParameterKind.Precedes
  infer_instance

theorem ParameterKind.rank_inj {left right : ParameterKind} :
    left.rank = right.rank ↔ left = right := by
  cases left <;> cases right <;> decide

theorem ParameterKind.precedes_iff {left right : ParameterKind} :
    left.Precedes right ↔ left.rank ≤ right.rank ∧
      (left.isVariadic = true → right.isVariadic = true → left ≠ right) := by
  cases left <;> cases right <;> decide

theorem ParameterKind.Precedes.trans {first second third : ParameterKind}
    (left : first.Precedes second) (right : second.Precedes third) : first.Precedes third := by
  rcases left with below | ⟨rfl, -⟩
  · rcases right with above | ⟨rfl, -⟩
    · exact .inl (Nat.lt_trans below above)
    · exact .inl below
  · exact right

namespace Signature

/-! ## Validation -/

theorem defectAfter_eq_none_iff {previous : Option ParameterKind} {parameter : Parameter} :
    defectAfter previous parameter = none ↔ ∀ kind ∈ previous, kind.Precedes parameter.kind := by
  cases previous with
  | none => simp [defectAfter]
  | some kind =>
      simp only [defectAfter, Option.mem_some_iff, forall_eq', ParameterKind.Precedes]
      by_cases below : parameter.kind.rank < kind.rank
      · have notAbove : ¬ kind.rank < parameter.kind.rank := by omega
        have differs : kind ≠ parameter.kind := fun same => by
          rw [same] at below
          omega
        simp [below, notAbove, differs]
      · rw [if_neg below]
        by_cases same : parameter.kind = kind
        · simp [same]
        · have ranksDiffer := mt ParameterKind.rank_inj.mp same
          have above : kind.rank < parameter.kind.rank := by omega
          simp [same, above]

/-- A kind that may follow the last one may follow all that stand before. -/
private theorem pairwise_after_iff {previous : Option ParameterKind} {kind : ParameterKind}
    {rest : List ParameterKind} (precedes : ∀ before ∈ previous, before.Precedes kind) :
    (previous.toList ++ kind :: rest).Pairwise ParameterKind.Precedes ↔
      (kind :: rest).Pairwise ParameterKind.Precedes := by
  cases previous with
  | none => rfl
  | some before =>
      have first := precedes before rfl
      rw [Option.toList_some, List.singleton_append, List.pairwise_cons]
      constructor
      · exact And.right
      · intro inOrder
        refine ⟨?_, inOrder⟩
        intro other member
        rcases List.mem_cons.mp member with rfl | inRest
        · exact first
        · exact first.trans (List.rel_of_pairwise_cons inOrder inRest)

private theorem fresh_cons_iff {seen : List String} {name : String} {rest : List String} :
    ((∀ other ∈ rest, other ∉ name :: seen) ∧ rest.Nodup) ↔
      (∀ other ∈ rest, other ∉ seen) ∧ (name :: rest).Nodup := by
  simp only [List.nodup_cons, List.mem_cons, not_or, forall_and]
  constructor
  · rintro ⟨⟨differs, fresh⟩, distinct⟩
    exact ⟨fresh, fun repeated => differs name repeated rfl, distinct⟩
  · rintro ⟨fresh, notRepeated, distinct⟩
    exact ⟨⟨fun other member same => notRepeated (same ▸ member), fresh⟩, distinct⟩

private theorem validateFrom_eq_ok_iff {seen : List String} {previous : Option ParameterKind}
    {parameters : List Parameter} :
    validateFrom seen previous parameters = .ok () ↔
      ((∀ name ∈ parameters.map (·.name), name ∉ seen) ∧ (parameters.map (·.name)).Nodup) ∧
        (previous.toList ++ parameters.map (·.kind)).Pairwise ParameterKind.Precedes := by
  -- Each parameter is compared with the last one only. What stands before that one is in order
  -- with it, so it is in order with the new one too.
  induction parameters generalizing seen previous with
  | nil => cases previous <;> simp [validateFrom]
  | cons parameter rest inductionHypothesis =>
      rw [validateFrom, List.map_cons, List.map_cons, List.forall_mem_cons]
      by_cases known : parameter.name ∈ seen
      · simp [known]
      rw [if_neg known]
      cases defect : defectAfter previous parameter with
      | some found =>
          have misplaced := mt defectAfter_eq_none_iff.mpr (defect ▸ Option.some_ne_none found)
          have notInOrder : ¬ (previous.toList ++ parameter.kind :: rest.map (·.kind)).Pairwise
              ParameterKind.Precedes := by
            intro inOrder
            refine misplaced fun kind isPrevious => ?_
            rw [isPrevious] at inOrder
            exact List.rel_of_pairwise_cons inOrder List.mem_cons_self
          simp [notInOrder]
      | none =>
          rw [pairwise_after_iff (defectAfter_eq_none_iff.mp defect)]
          simp only [known, not_false_eq_true, true_and]
          rw [inductionHypothesis, fresh_cons_iff]
          rfl

/-- A list is valid exactly if its names differ and every two of its kinds stand in order. -/
theorem validate_eq_ok_iff {parameters : List Parameter} :
    validate parameters = .ok () ↔ (parameters.map (·.name)).Nodup ∧
      (parameters.map (·.kind)).Pairwise ParameterKind.Precedes := by
  rw [validate, validateFrom_eq_ok_iff]
  simp

/-- The names in a valid signature differ. -/
theorem nodup_of_validate {parameters : List Parameter} (valid : validate parameters = .ok ()) :
    (parameters.map (·.name)).Nodup :=
  (validate_eq_ok_iff.mp valid).1

/-! ## The conditions on a signature -/

/-- The conditions on the parameters of a signature, each on the list as a whole. -/
structure IsValid (parameters : List Parameter) : Prop where
  distinct : (parameters.map (·.name)).Nodup
  inOrder : (parameters.map (·.kind.rank)).Pairwise (· ≤ ·)
  oneVarPositional : (parameters.map (·.kind)).count .varPositional ≤ 1
  oneVarKeyword : (parameters.map (·.kind)).count .varKeyword ≤ 1

private theorem nodup_variadic_iff {kinds : List ParameterKind} :
    (kinds.filter ParameterKind.isVariadic).Nodup ↔
      kinds.count .varPositional ≤ 1 ∧ kinds.count .varKeyword ≤ 1 := by
  rw [List.nodup_iff_count_le_one]
  constructor
  · intro once
    have positional := once .varPositional
    have keyword := once .varKeyword
    rw [List.count_filter rfl] at positional keyword
    exact ⟨positional, keyword⟩
  · rintro ⟨positional, keyword⟩ kind
    by_cases variadic : kind.isVariadic = true
    · rw [List.count_filter variadic]
      cases kind with
      | varPositional => exact positional
      | varKeyword => exact keyword
      | _ => cases variadic
    · have absent : kind ∉ kinds.filter ParameterKind.isVariadic :=
        fun member => variadic (List.mem_filter.mp member).2
      rw [List.count_eq_zero.mpr absent]
      omega

/-- Every two kinds stand in order exactly if their ranks do and no variadic kind is repeated. -/
theorem pairwise_precedes_iff {kinds : List ParameterKind} :
    kinds.Pairwise ParameterKind.Precedes ↔
      (kinds.map ParameterKind.rank).Pairwise (· ≤ ·) ∧
        kinds.count .varPositional ≤ 1 ∧ kinds.count .varKeyword ≤ 1 := by
  rw [← nodup_variadic_iff, List.nodup_iff_pairwise_ne, List.pairwise_filter, List.pairwise_map,
    ← List.pairwise_and_iff]
  exact iff_of_eq (congrArg (kinds.Pairwise ·)
    (funext₂ fun left right => propext ParameterKind.precedes_iff))

theorem validate_eq_ok_iff_isValid {parameters : List Parameter} :
    validate parameters = .ok () ↔ IsValid parameters := by
  rw [validate_eq_ok_iff, pairwise_precedes_iff, List.map_map]
  constructor
  · rintro ⟨distinct, inOrder, positional, keyword⟩
    exact ⟨distinct, inOrder, positional, keyword⟩
  · rintro ⟨distinct, inOrder, positional, keyword⟩
    exact ⟨distinct, inOrder, positional, keyword⟩

/-! ## The first defect -/

/-- What is wrong with a parameter behind those of a valid list. -/
inductive Breaks (before : List Parameter) (parameter : Parameter) : SignatureDefect → Prop
  | duplicate (repeated : parameter.name ∈ before.map (·.name)) :
      Breaks before parameter (.duplicate parameter.name)
  | misplaced {previous : Parameter} (fresh : parameter.name ∉ before.map (·.name))
      (last : before.getLast? = some previous)
      (below : parameter.kind.rank < previous.kind.rank) :
      Breaks before parameter (.misplaced parameter.name parameter.kind previous.kind)
  | repeatedVariadic (fresh : parameter.name ∉ before.map (·.name))
      (inOrder : ∀ earlier ∈ before, earlier.kind.rank ≤ parameter.kind.rank)
      (variadic : parameter.kind.isVariadic = true)
      (known : parameter.kind ∈ before.map (·.kind)) :
      Breaks before parameter (.repeatedVariadic parameter.kind)

theorem defectAfter_eq_some_iff {previous : Option ParameterKind} {parameter : Parameter}
    {defect : SignatureDefect} :
    defectAfter previous parameter = some defect ↔ ∃ kind ∈ previous,
      (parameter.kind.rank < kind.rank ∧
        defect = .misplaced parameter.name parameter.kind kind) ∨
      (parameter.kind = kind ∧ kind.isVariadic = true ∧ defect = .repeatedVariadic kind) := by
  cases previous with
  | none => simp [defectAfter]
  | some kind =>
      simp only [defectAfter, Option.mem_some_iff, exists_eq_left']
      rw [@eq_comm _ defect, @eq_comm _ defect]
      by_cases below : parameter.kind.rank < kind.rank
      · have differs : parameter.kind ≠ kind := by
          intro same
          rw [same] at below
          omega
        simp [below, differs]
      · rw [if_neg below, Option.ite_none_right_eq_some, Option.some.injEq, and_assoc]
        simp [below]

/-- The run over a list goes on from the names and the last kind of what it accepted. -/
private theorem validateFrom_append {seen : List String} {previous : Option ParameterKind}
    {before : List Parameter} (accepted : validateFrom seen previous before = .ok ())
    (rest : List Parameter) :
    validateFrom seen previous (before ++ rest) =
      validateFrom ((before.map (·.name)).reverse ++ seen)
        ((before.getLast?.map (·.kind)).or previous) rest := by
  induction before generalizing seen previous with
  | nil => rfl
  | cons parameter later inductionHypothesis =>
      rw [validateFrom] at accepted
      rw [List.cons_append, validateFrom]
      by_cases known : parameter.name ∈ seen
      · simp [known] at accepted
      rw [if_neg known] at accepted ⊢
      cases defect : defectAfter previous parameter with
      | some found =>
          rw [defect] at accepted
          cases accepted
      | none =>
          rw [defect] at accepted
          dsimp only at accepted ⊢
          rw [inductionHypothesis accepted]
          cases later with
          | nil => rfl
          | cons next others =>
              rw [List.getLast?_cons_cons]
              cases lastOf : (next :: others).getLast? with
              | none => simp at lastOf
              | some last => simp

private theorem validateFrom_singleton_eq_error_iff {seen : List String}
    {previous : Option ParameterKind} {parameter : Parameter} {defect : SignatureDefect} :
    validateFrom seen previous [parameter] = .error defect ↔
      (parameter.name ∈ seen ∧ defect = .duplicate parameter.name) ∨
        (parameter.name ∉ seen ∧ defectAfter previous parameter = some defect) := by
  rw [validateFrom]
  by_cases known : parameter.name ∈ seen
  · simp [known, eq_comm]
  · rw [if_neg known]
    cases defectAfter previous parameter with
    | some found => simp [known]
    | none => simp [known, validateFrom]

/-- A run that fails accepts a front and fails with the parameter behind it. -/
private theorem exists_of_validateFrom_eq_error {seen : List String}
    {previous : Option ParameterKind} {parameters : List Parameter} {defect : SignatureDefect}
    (refused : validateFrom seen previous parameters = .error defect) :
    ∃ before parameter after, parameters = before ++ parameter :: after ∧
      validateFrom seen previous before = .ok () ∧
      validateFrom seen previous (before ++ [parameter]) = .error defect := by
  induction parameters generalizing seen previous with
  | nil => cases refused
  | cons parameter rest inductionHypothesis =>
      cases first : validateFrom seen previous [parameter] with
      | error found =>
          have sameDefect : found = defect := by
            rw [validateFrom_singleton_eq_error_iff] at first
            rw [validateFrom] at refused
            rcases first with ⟨known, rfl⟩ | ⟨unknown, isDefect⟩
            · rw [if_pos known] at refused
              cases refused
              rfl
            · rw [if_neg unknown, isDefect] at refused
              cases refused
              rfl
          subst sameDefect
          exact ⟨[], parameter, rest, rfl, rfl, first⟩
      | ok accepted =>
          have onward := validateFrom_append first
          rw [← List.singleton_append, onward] at refused
          obtain ⟨before, breaker, after, rfl, ofBefore, ofBreaker⟩ := inductionHypothesis refused
          refine ⟨parameter :: before, breaker, after, rfl, ?_, ?_⟩
          · rw [← List.singleton_append, onward, ofBefore]
          · rw [← List.singleton_append, List.append_assoc, onward, ofBreaker]

/-- In a valid list no parameter has a later kind than the last. -/
private theorem IsValid.rank_le_last {parameters : List Parameter} (valid : IsValid parameters)
    {last : Parameter} (isLast : parameters.getLast? = some last) :
    ∀ parameter ∈ parameters, parameter.kind.rank ≤ last.kind.rank := by
  obtain ⟨front, rfl⟩ := List.getLast?_eq_some_iff.mp isLast
  have inOrder := valid.inOrder
  rw [List.pairwise_map, List.pairwise_append] at inOrder
  intro parameter member
  rcases List.mem_append.mp member with inFront | isEnd
  · exact inOrder.2.2 parameter inFront last List.mem_cons_self
  · obtain rfl := List.mem_singleton.mp isEnd
    exact Nat.le_refl _

/-- Behind a valid list, the comparison with the last parameter finds what is wrong in view of
the whole list. -/
private theorem breaks_iff {before : List Parameter} (valid : IsValid before)
    {parameter : Parameter} {defect : SignatureDefect} :
    validate (before ++ [parameter]) = .error defect ↔ Breaks before parameter defect := by
  rw [validate, validateFrom_append (validate_eq_ok_iff_isValid.mpr valid),
    validateFrom_singleton_eq_error_iff, defectAfter_eq_some_iff, List.append_nil,
    List.mem_reverse, Option.or_none]
  constructor
  · rintro (⟨repeated, rfl⟩ | ⟨fresh, kind, isLast, ⟨below, rfl⟩ | ⟨same, variadic, rfl⟩⟩)
    · exact .duplicate repeated
    · obtain ⟨previous, last, rfl⟩ := Option.map_eq_some_iff.mp isLast
      exact .misplaced fresh last below
    · obtain ⟨previous, last, rfl⟩ := Option.map_eq_some_iff.mp isLast
      rw [← same] at variadic ⊢
      refine .repeatedVariadic fresh ?_ variadic ?_
      · rw [same]
        exact valid.rank_le_last last
      · rw [same]
        exact List.mem_map_of_mem (List.mem_of_getLast? last)
  · rintro (repeated | ⟨fresh, last, below⟩ | ⟨fresh, inOrder, variadic, known⟩)
    · exact .inl ⟨repeated, rfl⟩
    · exact .inr ⟨fresh, _, Option.map_eq_some_iff.mpr ⟨_, last, rfl⟩, .inl ⟨below, rfl⟩⟩
    · obtain ⟨earlier, inBefore, sameKind⟩ := List.mem_map.mp known
      obtain ⟨last, isLast⟩ : ∃ last, before.getLast? = some last := by
        cases ending : before.getLast? with
        | none =>
            rw [List.getLast?_eq_none_iff.mp ending] at inBefore
            cases inBefore
        | some last => exact ⟨last, rfl⟩
      have lower := inOrder last (List.mem_of_getLast? isLast)
      have upper := valid.rank_le_last isLast earlier inBefore
      rw [sameKind] at upper
      have same : parameter.kind = last.kind :=
        ParameterKind.rank_inj.mp (Nat.le_antisymm upper lower)
      refine .inr ⟨fresh, last.kind, Option.map_eq_some_iff.mpr ⟨last, isLast, rfl⟩, .inr ?_⟩
      rw [← same]
      exact ⟨rfl, variadic, rfl⟩

/-- Validation accepts exactly the valid lists. It refuses any other with what is wrong at the
first parameter up to which the list is not valid. -/
theorem validate_decides (parameters : List Parameter) :
    (validate parameters = .ok () ↔ IsValid parameters) ∧
      ∀ defect, validate parameters = .error defect ↔
        ∃ before parameter after, parameters = before ++ parameter :: after ∧ IsValid before ∧
          ¬ IsValid (before ++ [parameter]) ∧ Breaks before parameter defect := by
  refine ⟨validate_eq_ok_iff_isValid, fun defect => ?_⟩
  constructor
  · intro refused
    obtain ⟨before, parameter, after, divided, accepted, ofParameter⟩ :=
      exists_of_validateFrom_eq_error refused
    have valid := validate_eq_ok_iff_isValid.mp accepted
    refine ⟨before, parameter, after, divided, valid, ?_, (breaks_iff valid).mp ofParameter⟩
    intro longer
    have accepted := validate_eq_ok_iff_isValid.mpr longer
    rw [validate, ofParameter] at accepted
    cases accepted
  · rintro ⟨before, parameter, after, rfl, valid, -, breaks⟩
    have refused := (breaks_iff valid).mpr breaks
    have onward := validateFrom_append (validate_eq_ok_iff_isValid.mpr valid)
    rw [validate, onward] at refused ⊢
    rw [validateFrom]
    rcases validateFrom_singleton_eq_error_iff.mp refused with ⟨known, rfl⟩ | ⟨unknown, isDefect⟩
    · rw [if_pos known]
    · rw [if_neg unknown, isDefect]

end Signature

end TypeStub
