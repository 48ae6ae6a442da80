import TypeStub.Proofs.Text.Intercalate
import TypeStub.Proofs.TypeExpr.Shape
import TypeStub.TypeExpr.Printer

/-!
Contract: the normal form of a type, which is as much of it as a stub shows.

Owns:
- `TypeExpr.norm`, which writes constructors as subscripts and puts the alternatives of a choice
  within a choice among those around them;
- `TypeExpr.IsNormal`, the trees that this gives for well-formed types;
- that a stub writes a well-formed type and its normal form alike.

Does not own: that types with one text have one normal form (`TypeStub.Proofs.TypeExpr.StubText`).
-/

namespace TypeStub.TypeExpr

/-- The alternatives of a choice. Any other type is its own only alternative. -/
def alternatives : TypeExpr → List TypeExpr
  | .union alternatives => alternatives
  | e => [e]

mutual

/-- The type with a subscript in place of each constructor and no choice directly in another. -/
def norm : TypeExpr → TypeExpr
  | .name path => .name path
  | .literal text => .literal text
  | .generic ctor arguments => .subscript (.name ctor.stubName) (normAll arguments)
  | .union alternatives => .union (spliceAll alternatives)
  | .subscript base arguments => .subscript (norm base) (normAll arguments)

/-- The normal form of each type. -/
def normAll : List TypeExpr → List TypeExpr
  | [] => []
  | head :: tail => norm head :: normAll tail

/-- The alternatives of the normal forms. -/
def spliceAll : List TypeExpr → List TypeExpr
  | [] => []
  | head :: tail => (norm head).alternatives ++ spliceAll tail

end

theorem normAll_eq_map (types : List TypeExpr) : normAll types = types.map norm := by
  induction types with
  | nil => rfl
  | cons head tail inductionHypothesis => simp [normAll, inductionHypothesis]

/-- The constructors are written in a stub as a name of the `typing` module and two built-in
ones, on the normal forms of their arguments. -/
theorem norm_generic (arguments : List TypeExpr) :
    norm (.generic .iter arguments) = .subscript (.name "typing.Iterator") (arguments.map norm) ∧
      norm (.generic .list arguments) = .subscript (.name "list") (arguments.map norm) ∧
      norm (.generic .tuple arguments) = .subscript (.name "tuple") (arguments.map norm) := by
  simp [norm, normAll_eq_map, Generic.stubName]

theorem spliceAll_eq_flatMap (types : List TypeExpr) :
    spliceAll types = types.flatMap fun e => (norm e).alternatives := by
  induction types with
  | nil => rfl
  | cons head tail inductionHypothesis => simp [spliceAll, inductionHypothesis]

theorem alternatives_of_not_isUnion {e : TypeExpr} (single : e.isUnion = false) :
    e.alternatives = [e] := by
  cases e with
  | union alternatives => cases single
  | _ => rfl

/-! ## Normal types -/

/-- A number, a quoted text or the ellipsis. -/
def IsLiteral (text : List Char) : Prop :=
  isNumber text = true ∨ IsQuoted text ∨ text = ellipsis

/-- Only names and literals have arguments, and no alternative is itself a choice. -/
inductive IsNormal : TypeExpr → Prop
  | name {path : String} (dotted : isDottedName path.toList = true) : IsNormal (.name path)
  | literal {text : String} (ofText : IsLiteral text.toList) : IsNormal (.literal text)
  | subscript {base : TypeExpr} {arguments : List TypeExpr} (ofBase : IsNormal base)
      (single : base.isUnion = false) (nonempty : arguments ≠ [])
      (ofArguments : ∀ argument ∈ arguments, IsNormal argument) :
      IsNormal (.subscript base arguments)
  | union {alternatives : List TypeExpr} (several : 2 ≤ alternatives.length)
      (ofAlternatives : ∀ alternative ∈ alternatives, IsNormal alternative)
      (single : ∀ alternative ∈ alternatives, alternative.isUnion = false) :
      IsNormal (.union alternatives)

theorem isDottedName_stubName (ctor : Generic) : isDottedName ctor.stubName.toList = true := by
  cases ctor <;> decide

theorem IsNormal.of_mem_alternatives {e alternative : TypeExpr} (isNormal : IsNormal e)
    (member : alternative ∈ e.alternatives) :
    IsNormal alternative ∧ alternative.isUnion = false := by
  cases e with
  | union alternatives =>
      cases isNormal with
      | union _ ofAlternatives single =>
          exact ⟨ofAlternatives alternative member, single alternative member⟩
  | _ =>
      rw [List.mem_singleton.mp member]
      exact ⟨isNormal, rfl⟩

theorem IsNormal.alternatives_ne_nil {e : TypeExpr} (isNormal : IsNormal e) :
    e.alternatives ≠ [] := by
  cases isNormal with
  | union several =>
      intro empty
      rw [alternatives] at empty
      simp [empty] at several
  | _ => simp [alternatives]

/-- The type with the alternatives. -/
def choice : List TypeExpr → TypeExpr
  | [only] => only
  | several => .union several

theorem IsNormal.choice_alternatives {e : TypeExpr} (isNormal : IsNormal e) :
    choice e.alternatives = e := by
  cases isNormal with
  | @union types several =>
      match types, several with
      | _ :: _ :: _, _ => rfl
  | _ => rfl

/-- A normal type is known by its alternatives. -/
theorem IsNormal.eq_of_alternatives {e other : TypeExpr} (isNormal : IsNormal e)
    (otherNormal : IsNormal other) (same : e.alternatives = other.alternatives) : e = other := by
  rw [← isNormal.choice_alternatives, same, otherNormal.choice_alternatives]

/-! ## The normal form of what is read -/

theorem IsValue.isUnion_norm {e : TypeExpr} (isValue : IsValue e) : (norm e).isUnion = false := by
  cases isValue <;> rfl

theorem IsValue.isNormal_norm {e : TypeExpr} (isValue : IsValue e) : IsNormal (norm e) := by
  induction isValue with
  | name dotted => exact .name dotted
  | number digits => exact .literal (.inl digits)
  | quoted quoted => exact .literal (.inr (.inl quoted))
  | ellipsis dots => exact .literal (.inr (.inr dots))
  | @subscript base arguments ofBase nonempty ofArguments baseHypothesis inductionHypothesis =>
      rw [norm, normAll_eq_map]
      apply IsNormal.subscript baseHypothesis ofBase.isUnion_norm
      · simpa using nonempty
      · intro argument member
        obtain ⟨original, inside, rfl⟩ := List.mem_map.mp member
        exact inductionHypothesis original inside

private theorem length_spliceAll {types : List TypeExpr}
    (ofTypes : ∀ e ∈ types, IsNormal (norm e)) : types.length ≤ (spliceAll types).length := by
  induction types with
  | nil => simp
  | cons head tail inductionHypothesis =>
      obtain ⟨ofHead, ofTail⟩ := List.forall_mem_cons.mp ofTypes
      have atLeastOne := List.length_pos_iff.mpr ofHead.alternatives_ne_nil
      have later := inductionHypothesis ofTail
      rw [spliceAll, List.length_append, List.length_cons]
      omega

theorem WellFormed.isNormal_norm {e : TypeExpr} (wellFormed : WellFormed e) :
    IsNormal (norm e) := by
  induction wellFormed with
  | value isValue => exact isValue.isNormal_norm
  | @generic ctor arguments taken nonempty ofArguments inductionHypothesis =>
      rw [norm, normAll_eq_map]
      apply IsNormal.subscript (.name (isDottedName_stubName ctor)) rfl
      · simpa using nonempty
      · intro argument member
        obtain ⟨original, inside, rfl⟩ := List.mem_map.mp member
        exact inductionHypothesis original inside
  | @union alternatives several ofAlternatives inductionHypothesis =>
      have parts : ∀ part ∈ spliceAll alternatives, IsNormal part ∧ part.isUnion = false := by
        intro part member
        rw [spliceAll_eq_flatMap] at member
        obtain ⟨original, inside, isPart⟩ := List.mem_flatMap.mp member
        exact (inductionHypothesis original inside).of_mem_alternatives isPart
      rw [norm]
      exact .union (Nat.le_trans several (length_spliceAll inductionHypothesis))
        (fun part member => (parts part member).1) fun part member => (parts part member).2

/-! ## Text -/

/-- The bar between alternatives. -/
def barred (pieces : List (List Char)) : List Char :=
  [' ', '|', ' '].intercalate pieces

theorem stubText_eq_barred (e : TypeExpr) :
    e.stubText = barred (e.alternatives.map stubText) := by
  cases e with
  | union alternatives => rw [stubText, stubTexts_eq_map, TypeExpr.alternatives, barred]
  | _ => simp [alternatives, barred]

/-- A stub writes a type and its normal form alike. -/
theorem WellFormed.stubText_norm {e : TypeExpr} (wellFormed : WellFormed e) :
    (norm e).stubText = e.stubText := by
  have arguments : ∀ types : List TypeExpr, (∀ e ∈ types, (norm e).stubText = e.stubText) →
      stubTexts (normAll types) = stubTexts types := by
    intro types each
    rw [stubTexts_eq_map, stubTexts_eq_map, normAll_eq_map, List.map_map]
    exact List.map_congr_left each
  induction wellFormed with
  | @value e isValue =>
      induction isValue with
      | @subscript base types ofBase nonempty ofArguments baseHypothesis inductionHypothesis =>
          rw [norm, stubText, stubText, baseHypothesis, arguments types inductionHypothesis]
      | _ => rfl
  | @generic ctor types taken nonempty ofArguments inductionHypothesis =>
      rw [norm, stubText, stubText, stubText, arguments types inductionHypothesis]
  | @union types several ofAlternatives inductionHypothesis =>
      have parts : ∀ part ∈ types.map fun e => (norm e).alternatives.map stubText,
          part ≠ [] := by
        intro part member
        obtain ⟨e, inside, rfl⟩ := List.mem_map.mp member
        simpa using (ofAlternatives e inside).isNormal_norm.alternatives_ne_nil
      have spliced : (spliceAll types).map stubText =
          (types.map fun e => (norm e).alternatives.map stubText).flatten := by
        rw [spliceAll_eq_flatMap, List.map_flatMap, List.flatMap_def]
      rw [norm, stubText, stubTexts_eq_map, spliced, Intercalate.intercalate_flatten parts,
        List.map_map, stubText, stubTexts_eq_map]
      refine congrArg _ (List.map_congr_left ?_)
      intro e inside
      exact (stubText_eq_barred (norm e)).symm.trans (inductionHypothesis e inside)

end TypeStub.TypeExpr
