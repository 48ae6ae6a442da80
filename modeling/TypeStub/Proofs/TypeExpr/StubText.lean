import TypeStub.Proofs.Text.Backward
import TypeStub.Proofs.TypeExpr.Grammar
import TypeStub.Proofs.TypeExpr.Normal
import TypeStub.Proofs.TypeExpr.Spelling

/-!
Contract: the text of a type in a stub means one type only, up to its normal form.

Owns:
- `TypeExpr.OpensItem` and `TypeExpr.OpensChoice`, what may stand before a type in a stub;
- `TypeExpr.typeText_unique`, that behind such a beginning the end of a text decides which normal
  type was written, and what a type can end with;
- `TypeExpr.toStub_eq_iff_norm_eq`, types with one text have one normal form.

A text is read from its end: `x[a][b]` ends with its last argument list, and the base before it
is a shorter text. A quote that ends a text is that of a literal, in which it does not occur.
-/

namespace TypeStub.TypeExpr

open Backward (Ends ReadsBack ends_append_singleton run_unique)
open Value (isIdentifierPart)

/-! ## Names and literals -/

/-- The text of a name or a literal. -/
def IsAtomText (text : List Char) : Prop :=
  (text ≠ [] ∧ ∀ c ∈ text, isIdentifierPart c = true) ∨ IsQuoted text

theorem isAtomText_of_isDottedName {path : List Char} (dotted : isDottedName path = true) :
    IsAtomText path := by
  simp only [isDottedName, Bool.and_eq_true] at dotted
  refine .inl ⟨?_, List.all_eq_true.mp dotted.1.2⟩
  rintro rfl
  cases dotted.2

theorem IsLiteral.isAtomText {text : List Char} (isLiteral : IsLiteral text) :
    IsAtomText text := by
  rcases isLiteral with digits | quoted | rfl
  · refine .inl ⟨?_, fun c member =>
      isIdentifierPart_of_isNumberPart (isNumberPart_of_isNumber digits c member)⟩
    rintro rfl
    cases digits
  · exact .inr quoted
  · exact .inl ⟨by simp [ellipsis], List.all_eq_true.mp (by decide)⟩

/-- A character that a type may end with: of an identifier, a quote or a bracket. -/
def closesType (c : Char) : Bool :=
  isIdentifierPart c || c == '\'' || c == '"' || c == ']'

/-- What a name or a literal ends with: a character of an identifier, or a quote. -/
theorem IsAtomText.exists_last {text : List Char} (isAtom : IsAtomText text) :
    ∃ front c, text = front ++ [c] ∧ closesType c = true ∧ c ≠ ']' ∧
      (isIdentifierPart c = true ↔ ¬ IsQuoted text) := by
  rcases isAtom with ⟨nonempty, parts⟩ | quoted
  · obtain ⟨front, c, rfl⟩ := (List.eq_nil_or_concat text).resolve_left nonempty
    rw [List.concat_eq_append] at parts ⊢
    have isPart := parts c (by simp)
    refine ⟨front, c, rfl, by simp [closesType, isPart], ?_, ?_⟩
    · rintro rfl
      cases isPart
    · simp only [isPart, true_iff]
      rintro ⟨quote, body, isQuote, divided, -⟩
      have atEnd := congrArg List.getLast? divided
      rw [← List.cons_append, List.getLast?_append, List.getLast?_append] at atEnd
      have same : c = quote := by simpa using atEnd
      rw [same] at isPart
      rcases isQuote with rfl | rfl <;> cases isPart
  · have isQuotedText := quoted
    obtain ⟨quote, body, isQuote, rfl, -⟩ := quoted
    refine ⟨quote :: body, quote, rfl, ?_, ?_, ?_⟩
    · rcases isQuote with rfl | rfl <;> decide
    · rcases isQuote with rfl | rfl <;> decide
    · simp only [isQuotedText, not_true_eq_false, iff_false]
      rcases isQuote with rfl | rfl <;> decide

private theorem quoted_unique {left right front rear : List Char} (ofLeft : IsQuoted left)
    (ofRight : IsQuoted right) (same : front ++ left = rear ++ right) :
    front = rear ∧ left = right := by
  obtain ⟨quote, body, -, rfl, free⟩ := ofLeft
  obtain ⟨other, inner, -, rfl, otherFree⟩ := ofRight
  have divided : ((front ++ [quote]) ++ body) ++ [quote] =
      ((rear ++ [other]) ++ inner) ++ [other] := by
    simpa using same
  obtain ⟨sameBody, sameQuote⟩ := List.append_inj' divided rfl
  cases sameQuote
  obtain ⟨sameFront, rfl⟩ := run_unique (p := fun c => c != quote)
    (fun c member => by simpa using (free c member).1)
    (fun c member => by simpa using (otherFree c member).1)
    ((ends_append_singleton front).mpr (by simp)) ((ends_append_singleton rear).mpr (by simp))
    sameBody
  exact ⟨List.append_cancel_right sameFront, rfl⟩

/-- Behind anything but an identifier, names and literals are known from the end. -/
theorem atom_unique {left right front rear : List Char} (ofLeft : IsAtomText left)
    (ofRight : IsAtomText right) (frontEnds : Ends isIdentifierPart front)
    (rearEnds : Ends isIdentifierPart rear) (same : front ++ left = rear ++ right) :
    front = rear ∧ left = right := by
  obtain ⟨leftFront, c, isLeft, -, -, leftKind⟩ := ofLeft.exists_last
  obtain ⟨rightFront, d, isRight, -, -, rightKind⟩ := ofRight.exists_last
  have sameLast : c = d := by
    rw [isLeft, isRight, ← List.append_assoc, ← List.append_assoc] at same
    exact List.singleton_inj.mp (List.append_inj' same rfl).2
  subst sameLast
  have sameKind : IsQuoted left ↔ IsQuoted right := not_iff_not.mp (leftKind.symm.trans rightKind)
  rcases ofLeft with ⟨-, leftParts⟩ | leftQuoted
  · rcases ofRight with ⟨-, rightParts⟩ | rightQuoted
    · exact run_unique leftParts rightParts frontEnds rearEnds same
    · exact quoted_unique (sameKind.mpr rightQuoted) rightQuoted same
  · exact quoted_unique leftQuoted (sameKind.mp leftQuoted) same

/-- A literal does not begin like a name. -/
theorem not_isLiteral_of_isDottedName {text : List Char} (dotted : isDottedName text = true) :
    ¬ IsLiteral text := by
  simp only [isDottedName, Bool.and_eq_true] at dotted
  have starts := dotted.2
  rintro (digits | ⟨quote, body, isQuote, rfl, -⟩ | rfl)
  · cases text with
    | nil => cases digits
    | cons c rest =>
        rw [isNumber, Bool.and_eq_true] at digits
        simp only [List.head?_cons, Option.any_some, Bool.or_eq_true, beq_iff_eq] at starts
        rcases starts with letter | rfl
        · rw [Token.not_isDigit_of_isAlpha letter] at digits
          cases digits.1
        · cases digits.1
  · rcases isQuote with rfl | rfl <;> cases starts
  · cases starts

/-! ## Types behind a beginning -/

/-- An alternative or a base may stand behind the text. -/
def OpensItem (front : List Char) : Prop :=
  Ends isIdentifierPart front

/-- A whole type may stand behind the text, which ends with no bar. -/
def OpensChoice (front : List Char) : Prop :=
  OpensItem front ∧ ∀ before, front ≠ before ++ [' ', '|', ' ']

/-- Behind what opens an item, the text of the item is known from the end. -/
def ReadsBackItem (e : TypeExpr) : Prop :=
  ReadsBack stubText OpensItem (fun other => IsNormal other ∧ other.isUnion = false) e

theorem opensItem_nil : OpensItem [] :=
  Backward.ends_nil _

theorem opensItem_append_singleton {c : Char} (notPart : isIdentifierPart c = false)
    (front : List Char) : OpensItem (front ++ [c]) :=
  (ends_append_singleton front).mpr notPart

theorem opensChoice_nil : OpensChoice [] :=
  ⟨opensItem_nil, by simp⟩

/-- A text that ends with a mark other than the space behind a bar opens a type. -/
theorem opensChoice_append_pair {c d : Char} (notPart : isIdentifierPart d = false)
    (notBar : (c, d) ≠ ('|', ' ')) (front : List Char) : OpensChoice (front ++ [c, d]) := by
  have divided : front ++ [c, d] = (front ++ [c]) ++ [d] := by simp
  refine ⟨divided ▸ opensItem_append_singleton notPart _, ?_⟩
  intro before same
  have atEnd : front ++ [c, d] = (before ++ [' ']) ++ ['|', ' '] := by simpa using same
  have samePair := (List.append_inj' atEnd rfl).2
  simp only [List.cons.injEq, and_true] at samePair
  exact notBar (Prod.ext samePair.1 samePair.2)

theorem opensChoice_append_singleton {c : Char} (notPart : isIdentifierPart c = false)
    (notSpace : c ≠ ' ') (front : List Char) : OpensChoice (front ++ [c]) := by
  refine ⟨opensItem_append_singleton notPart front, ?_⟩
  intro before same
  have atEnd : front ++ [c] = (before ++ [' ', '|']) ++ [' '] := by simpa using same
  exact notSpace (List.singleton_inj.mp (List.append_inj' atEnd rfl).2)

/-- A type whose alternatives are known from the end is itself known from the end. -/
theorem IsNormal.readsBack_of_alternatives {e : TypeExpr} (isNormal : IsNormal e)
    (each : ∀ alternative ∈ e.alternatives, ReadsBackItem alternative) :
    ReadsBack stubText OpensChoice IsNormal e := by
  intro other otherNormal front rear frontOpens rearOpens same
  rw [stubText_eq_barred, stubText_eq_barred other, barred, barred] at same
  have between : ∀ text : List Char, OpensItem (text ++ [' ', '|', ' ']) := by
    intro text
    have divided : text ++ [' ', '|', ' '] = (text ++ [' ', '|']) ++ [' '] := by simp
    exact divided ▸ opensItem_append_singleton (by decide) _
  have start : ∀ text, OpensChoice text → OpensItem text := fun _ opens => opens.1
  have apart : ∀ text, ¬ OpensChoice (text ++ [' ', '|', ' ']) := fun text opens => opens.2 text rfl
  obtain ⟨sameFront, sameAlternatives⟩ := Backward.joined_unique start between apart each
    (fun alternative member => otherNormal.of_mem_alternatives member)
    isNormal.alternatives_ne_nil otherNormal.alternatives_ne_nil frontOpens rearOpens same
  exact ⟨sameFront, isNormal.eq_of_alternatives otherNormal sameAlternatives⟩

/-- Arguments behind their opening bracket are known from the end. -/
private theorem arguments_unique {lefts rights : List TypeExpr} (leftNonempty : lefts ≠ [])
    (rightNonempty : rights ≠ [])
    (each : ∀ left ∈ lefts, ReadsBack stubText OpensChoice IsNormal left)
    (ofRights : ∀ right ∈ rights, IsNormal right) {front rear : List Char}
    (same : (front ++ ['[']) ++ commaSeparated (stubTexts lefts) =
      (rear ++ ['[']) ++ commaSeparated (stubTexts rights)) :
    front = rear ∧ lefts = rights := by
  rw [stubTexts_eq_map, stubTexts_eq_map, commaSeparated, commaSeparated] at same
  have start : ∀ text, (∃ before, text = before ++ ['[']) → OpensChoice text := by
    rintro _ ⟨before, rfl⟩
    exact opensChoice_append_singleton (by decide) (by decide) before
  have between : ∀ text, OpensChoice (text ++ [',', ' ']) :=
    opensChoice_append_pair (by decide) (by decide)
  have apart : ∀ text : List Char, ¬ ∃ before, text ++ [',', ' '] = before ++ ['['] := by
    rintro text ⟨before, equal⟩
    have atEnd : (text ++ [',']) ++ [' '] = before ++ ['['] := by simpa using equal
    exact absurd (List.append_inj' atEnd rfl).2 (by decide)
  obtain ⟨sameFront, sameArguments⟩ := Backward.joined_unique start between apart each ofRights
    leftNonempty rightNonempty ⟨front, rfl⟩ ⟨rear, rfl⟩ same
  exact ⟨List.append_cancel_right sameFront, sameArguments⟩

private theorem stubText_subscript (front : List Char) (base : TypeExpr)
    (arguments : List TypeExpr) :
    front ++ stubText (.subscript base arguments) =
      (((front ++ base.stubText) ++ ['[']) ++ commaSeparated (stubTexts arguments)) ++ [']'] := by
  simp [stubText]

/-- An atom cannot be confused with a subscript, which ends with its bracket. -/
private theorem atom_ne_subscript {text : List Char} (isAtom : IsAtomText text)
    (front rear : List Char) (base : TypeExpr) (arguments : List TypeExpr) :
    front ++ text ≠ rear ++ stubText (.subscript base arguments) := by
  obtain ⟨before, c, rfl, -, notBracket, -⟩ := isAtom.exists_last
  rw [stubText_subscript, ← List.append_assoc]
  intro same
  exact notBracket (List.singleton_inj.mp (List.append_inj' same rfl).2)

private theorem readsBackItem_name {path : String} (dotted : isDottedName path.toList = true) :
    ReadsBackItem (.name path) := by
  intro other ⟨otherNormal, single⟩ front rear frontOpens rearOpens same
  have isAtom := isAtomText_of_isDottedName dotted
  rw [stubText] at same
  cases otherNormal with
  | name otherDotted =>
      obtain ⟨sameFront, samePath⟩ :=
        atom_unique isAtom (isAtomText_of_isDottedName otherDotted) frontOpens rearOpens same
      exact ⟨sameFront, congrArg name (String.toList_inj.mp samePath)⟩
  | literal ofText =>
      obtain ⟨-, sameText⟩ := atom_unique isAtom ofText.isAtomText frontOpens rearOpens same
      exact absurd (sameText ▸ ofText) (not_isLiteral_of_isDottedName dotted)
  | subscript => exact absurd same (atom_ne_subscript isAtom front rear _ _)
  | union => cases single

private theorem readsBackItem_literal {text : String} (isLiteral : IsLiteral text.toList) :
    ReadsBackItem (.literal text) := by
  intro other ⟨otherNormal, single⟩ front rear frontOpens rearOpens same
  rw [stubText] at same
  cases otherNormal with
  | name dotted =>
      obtain ⟨-, sameText⟩ := atom_unique isLiteral.isAtomText (isAtomText_of_isDottedName dotted)
        frontOpens rearOpens same
      exact absurd (sameText ▸ isLiteral) (not_isLiteral_of_isDottedName dotted)
  | literal otherLiteral =>
      obtain ⟨sameFront, sameText⟩ :=
        atom_unique isLiteral.isAtomText otherLiteral.isAtomText frontOpens rearOpens same
      exact ⟨sameFront, congrArg literal (String.toList_inj.mp sameText)⟩
  | subscript => exact absurd same (atom_ne_subscript isLiteral.isAtomText front rear _ _)
  | union => cases single

private theorem readsBackItem_subscript {base : TypeExpr} {arguments : List TypeExpr}
    (nonempty : arguments ≠ []) (ofBase : ReadsBackItem base)
    (ofArguments : ∀ argument ∈ arguments, ReadsBack stubText OpensChoice IsNormal argument) :
    ReadsBackItem (.subscript base arguments) := by
  intro other ⟨otherNormal, single⟩ front rear frontOpens rearOpens same
  cases otherNormal with
  | name dotted =>
      exact absurd same.symm (atom_ne_subscript (isAtomText_of_isDottedName dotted) rear front _ _)
  | literal ofText =>
      exact absurd same.symm (atom_ne_subscript ofText.isAtomText rear front _ _)
  | subscript otherBase otherSingle otherNonempty otherArguments =>
      rw [stubText_subscript, stubText_subscript] at same
      obtain ⟨sameBase, rfl⟩ := arguments_unique nonempty otherNonempty ofArguments otherArguments
        (List.append_cancel_right same)
      obtain ⟨sameFront, rfl⟩ :=
        ofBase _ ⟨otherBase, otherSingle⟩ front rear frontOpens rearOpens sameBase
      exact ⟨sameFront, rfl⟩
  | union => cases single

/-- Each alternative of a normal type is known from the end. -/
private theorem IsNormal.readsBackItem {e : TypeExpr} (isNormal : IsNormal e) :
    ∀ alternative ∈ e.alternatives, ReadsBackItem alternative := by
  induction isNormal with
  | name dotted => exact List.forall_mem_singleton.mpr (readsBackItem_name dotted)
  | literal ofText => exact List.forall_mem_singleton.mpr (readsBackItem_literal ofText)
  | @subscript base arguments ofBase single nonempty ofArguments baseHypothesis
      inductionHypothesis =>
      rw [alternatives_of_not_isUnion single] at baseHypothesis
      have readsArguments : ∀ argument ∈ arguments,
          ReadsBack stubText OpensChoice IsNormal argument := fun argument member =>
        (ofArguments argument member).readsBack_of_alternatives
          (inductionHypothesis argument member)
      exact List.forall_mem_singleton.mpr (readsBackItem_subscript nonempty
        (baseHypothesis base List.mem_cons_self) readsArguments)
  | @union alternatives several ofAlternatives single inductionHypothesis =>
      -- No alternative is itself a choice, so each is the only alternative of its own.
      intro alternative member
      have ofMember := inductionHypothesis alternative member
      rw [alternatives_of_not_isUnion (single alternative member)] at ofMember
      exact ofMember alternative List.mem_cons_self

/-- Behind what opens a type, a normal type is known from the end of its text. -/
theorem IsNormal.readsBack {e : TypeExpr} (isNormal : IsNormal e) :
    ReadsBack stubText OpensChoice IsNormal e :=
  isNormal.readsBack_of_alternatives isNormal.readsBackItem

/-- What a normal type ends with. -/
theorem IsNormal.exists_last {e : TypeExpr} (isNormal : IsNormal e) :
    ∃ front c, e.stubText = front ++ [c] ∧ closesType c = true := by
  induction isNormal with
  | name dotted =>
      obtain ⟨front, c, divided, closes, -⟩ := (isAtomText_of_isDottedName dotted).exists_last
      exact ⟨front, c, divided, closes⟩
  | literal ofText =>
      obtain ⟨front, c, divided, closes, -⟩ := ofText.isAtomText.exists_last
      exact ⟨front, c, divided, closes⟩
  | @subscript base arguments =>
      exact ⟨_, ']', stubText_subscript [] base arguments, rfl⟩
  | @union alternatives several ofAlternatives single inductionHypothesis =>
      obtain ⟨earlier, last, rfl⟩ := (List.eq_nil_or_concat alternatives).resolve_left (by
        rintro rfl
        simp at several)
      rw [List.concat_eq_append] at several inductionHypothesis ⊢
      obtain ⟨front, c, divided, closes⟩ := inductionHypothesis last (by simp)
      have nonempty : earlier.map stubText ≠ [] := by
        rintro empty
        rw [List.map_eq_nil_iff.mp empty] at several
        simp at several
      have written : stubText (.union (earlier ++ [last])) =
          (barred (earlier.map stubText) ++ ([' ', '|', ' '] ++ front)) ++ [c] := by
        rw [stubText_eq_barred, alternatives, barred, List.map_append, List.map_singleton,
          Intercalate.append_singleton _ nonempty, divided, barred]
        simp
      exact ⟨_, c, written, closes⟩

/-! ## Texts of stubs -/

/-- A text that a well-formed type has in a stub. -/
def IsTypeText (text : List Char) : Prop :=
  ∃ type, WellFormed type ∧ type.stubText = text

/-- Behind what opens a type, the text of a type is known from the end. -/
theorem typeText_unique {left right front rear : List Char} (ofLeft : IsTypeText left)
    (ofRight : IsTypeText right) (frontOpens : OpensChoice front) (rearOpens : OpensChoice rear)
    (same : front ++ left = rear ++ right) : front = rear ∧ left = right := by
  obtain ⟨leftType, leftFormed, rfl⟩ := ofLeft
  obtain ⟨rightType, rightFormed, rfl⟩ := ofRight
  rw [← leftFormed.stubText_norm, ← rightFormed.stubText_norm] at same ⊢
  obtain ⟨sameFront, sameType⟩ := leftFormed.isNormal_norm.readsBack _ rightFormed.isNormal_norm
    front rear frontOpens rearOpens same
  exact ⟨sameFront, congrArg stubText sameType⟩

theorem IsTypeText.exists_last {text : List Char} (isType : IsTypeText text) :
    ∃ front c, text = front ++ [c] ∧ closesType c = true := by
  obtain ⟨type, wellFormed, rfl⟩ := isType
  rw [← wellFormed.stubText_norm]
  exact wellFormed.isNormal_norm.exists_last

theorem WellFormed.stubText_eq_iff {left right : TypeExpr} (ofLeft : WellFormed left)
    (ofRight : WellFormed right) : left.stubText = right.stubText ↔ norm left = norm right := by
  constructor
  · intro same
    rw [← ofLeft.stubText_norm, ← ofRight.stubText_norm] at same
    exact (ofLeft.isNormal_norm.readsBack _ ofRight.isNormal_norm [] [] opensChoice_nil
      opensChoice_nil same).2
  · intro same
    rw [← ofLeft.stubText_norm, ← ofRight.stubText_norm, same]

/-- Two types that have been read look the same in a stub exactly if they have one normal form. -/
theorem toStub_eq_iff_norm_eq {first second : String} {left right : Resolved TypeExpr}
    (ofFirst : parse first = .ok left) (ofSecond : parse second = .ok right) :
    left.value.toStub = right.value.toStub ↔ norm left.value = norm right.value := by
  rw [toStub, toStub, String.ofList_inj]
  exact (wellFormed_of_parse ofFirst).1.stubText_eq_iff (wellFormed_of_parse ofSecond).1

/-- A choice in parentheses within another is a different type, of which a stub shows nothing. -/
theorem toStub_eq_iff_norm_eq_grouped :
    ∃ left right, parse "list(int or (str or None))" = .ok left ∧
      parse "list(int | str | None)" = .ok right ∧ left.value ≠ right.value ∧
      left.value.toStub = right.value.toStub := by
  have grouped : parse "list(int or (str or None))" = .ok (resolved
      (.generic .list [.union [.name "int", .union [.name "str", .name "None"]]])) := by
    decide +kernel
  have flat : parse "list(int | str | None)" = .ok (resolved
      (.generic .list [.union [.name "int", .name "str", .name "None"]])) := by
    decide +kernel
  exact ⟨_, _, grouped, flat, by decide, (toStub_eq_iff_norm_eq grouped flat).mpr (by decide)⟩

end TypeStub.TypeExpr
