import TypeStub.Declaration.Printer
import TypeStub.Proofs.Documentation.Directive
import TypeStub.Proofs.TypeExpr.StubText

/-!
Contract: the parts of a parameter list, read from its text.

Owns:
- `Piece`, a marker of a parameter list or a parameter in it, and its text;
- `Piece.joined_inj`, that a text separates into parts in one way only.

The type of a parameter may contain commas, brackets and quotes. What makes the text readable is
that a parameter ends with its type, its name or the ellipsis of its default, all of which are
texts of types, and that the few characters before tell these apart.
-/

namespace TypeStub

open Backward (Ends ReadsBack ends_append_singleton ends_nil run_unique)
open TypeExpr

namespace Decl

/-- What a stub shows of a parameter behind its stars. -/
structure Shown where
  name : String
  annotation : Option (List Char)
  hasDefault : Bool
deriving DecidableEq, Repr

namespace Shown

/-- The text before the last type, where names and ellipses count as types. -/
def lead (shown : Shown) : List Char :=
  match shown.annotation, shown.hasDefault with
  | none, false => []
  | none, true => shown.name.toList ++ ['=']
  | some _, false => shown.name.toList ++ [':', ' ']
  | some type, true => shown.name.toList ++ [':', ' '] ++ type ++ [' ', '=', ' ']

/-- The last type in the text. -/
def final (shown : Shown) : List Char :=
  match shown.annotation, shown.hasDefault with
  | none, false => shown.name.toList
  | some type, false => type
  | _, true => ['.', '.', '.']

def text (shown : Shown) : List Char :=
  shown.lead ++ shown.final

/-- The name is an identifier, and the annotation is an expression. -/
structure IsOver (expression : List Char → Prop) (shown : Shown) : Prop where
  name : Directive.IsName shown.name.toList
  annotation : ∀ text ∈ shown.annotation, expression text

/-- The annotation is the text of a type. -/
abbrev IsLegible (shown : Shown) : Prop :=
  shown.IsOver IsTypeText

end Shown

/-- A part of a parameter list. -/
inductive Piece where
  | slash
  | star
  | named (stars : Nat) (shown : Shown)
deriving DecidableEq, Repr

namespace Piece

def text : Piece → List Char
  | .slash => ['/']
  | .star => ['*']
  | .named stars shown => List.replicate stars '*' ++ shown.text

/-- The part is a marker, or a named parameter whose annotation is an expression. -/
def IsOver (expression : List Char → Prop) : Piece → Prop
  | .named _ shown => shown.IsOver expression
  | _ => True

theorem IsOver.imp {expression other : List Char → Prop} {piece : Piece}
    (isOver : piece.IsOver expression) (included : ∀ text, expression text → other text) :
    piece.IsOver other := by
  cases piece with
  | named stars shown =>
      exact ⟨isOver.name, fun text isText => included text (isOver.annotation text isText)⟩
  | _ => trivial

/-- The annotation is the text of a type. -/
abbrev IsLegible (piece : Piece) : Prop :=
  piece.IsOver IsTypeText

end Piece

/-! ## The last type of a parameter -/

theorem isTypeText_of_isName {name : List Char} (isName : Directive.IsName name) :
    IsTypeText name := by
  obtain ⟨starts, parts⟩ := isName
  have noDot : ∀ c ∈ name, (c == '.') = false := by
    intro c member
    have isPart := parts c member
    rw [beq_eq_false_iff_ne]
    rintro rfl
    cases isPart
  have inIdentifier : name.all Value.isIdentifierPart = true := by
    rw [List.all_eq_true]
    intro c member
    have isPart := parts c member
    rw [Directive.isNamePart, Bool.or_eq_true] at isPart
    rcases isPart with alphanumeric | underscore
    · simp [Value.isIdentifierPart, alphanumeric]
    · simp [Value.isIdentifierPart, underscore]
  have complete : Dotted.isComplete name = true := by
    have single : name.splitOn '.' = [name] := List.splitOnP_eq_singleton (by simpa using noDot)
    rw [Dotted.isComplete, Dotted.segments, single]
    cases name with
    | nil => cases starts
    | cons c rest => rfl
  refine ⟨.name (String.ofList name), .value (.name ?_), by simp [stubText]⟩
  rw [String.toList_ofList, isDottedName, complete, inIdentifier]
  exact starts

theorem isTypeText_ellipsis : IsTypeText ['.', '.', '.'] :=
  ⟨.literal "...", .value (.ellipsis rfl), rfl⟩

theorem Shown.IsLegible.isTypeText_final {shown : Shown} (legible : shown.IsLegible) :
    IsTypeText shown.final := by
  unfold Shown.final
  split
  · exact isTypeText_of_isName legible.name
  · rename_i type annotated _
    exact legible.annotation type annotated
  · exact isTypeText_ellipsis

/-- A parameter without its stars may stand behind the text. -/
def OpensParameter (front : List Char) : Prop :=
  front = [] ∨ (∃ before, front = before ++ ['*']) ∨ ∃ before, front = before ++ [',', ' ']

theorem opensChoice_of_opensParameter {front : List Char} (opens : OpensParameter front) :
    OpensChoice front := by
  rcases opens with rfl | ⟨before, rfl⟩ | ⟨before, rfl⟩
  · exact opensChoice_nil
  · exact opensChoice_append_singleton (by decide) (by decide) before
  · exact opensChoice_append_pair (by decide) (by decide) before

namespace Shown

theorem opensChoice_lead {front : List Char} (opens : OpensParameter front) (shown : Shown) :
    OpensChoice (front ++ shown.lead) := by
  unfold lead
  split
  · rw [List.append_nil]
    exact opensChoice_of_opensParameter opens
  · rw [← List.append_assoc]
    exact opensChoice_append_singleton (by decide) (by decide) _
  · rw [← List.append_assoc]
    exact opensChoice_append_pair (by decide) (by decide) _
  · rw [List.append_cons _ ' ', ← List.append_assoc]
    exact opensChoice_append_pair (by decide) (by decide) _

/-- Whether there is an annotation and whether there is a default, by what stands before the
last type. -/
def shape (front : List Char) : Bool × Bool :=
  match front.reverse with
  | '=' :: _ => (false, true)
  | ' ' :: ':' :: _ => (true, false)
  | ' ' :: '=' :: _ => (true, true)
  | _ => (false, false)

theorem shape_lead {front : List Char} (opens : OpensParameter front) (shown : Shown) :
    shape (front ++ shown.lead) = (shown.annotation.isSome, shown.hasDefault) := by
  obtain ⟨name, annotation, hasDefault⟩ := shown
  cases annotation with
  | none =>
      cases hasDefault with
      | true => simp [lead, shape]
      | false =>
          rcases opens with rfl | ⟨before, rfl⟩ | ⟨before, rfl⟩ <;> simp [lead, shape]
  | some type => cases hasDefault <;> simp [lead, shape]

private theorem name_unique {left right : String} (ofLeft : Directive.IsName left.toList)
    (ofRight : Directive.IsName right.toList) {front rear : List Char}
    (frontOpens : OpensParameter front) (rearOpens : OpensParameter rear)
    (same : front ++ left.toList = rear ++ right.toList) : front = rear ∧ left = right := by
  obtain ⟨sameFront, sameText⟩ := typeText_unique (isTypeText_of_isName ofLeft)
    (isTypeText_of_isName ofRight) (opensChoice_of_opensParameter frontOpens)
    (opensChoice_of_opensParameter rearOpens) same
  exact ⟨sameFront, String.toList_inj.mp sameText⟩

/-- Parameters of one shape are known from the last type and what stands before it. -/
private theorem lead_unique {left right : Shown} (ofLeft : left.IsLegible)
    (ofRight : right.IsLegible) {front rear : List Char} (frontOpens : OpensParameter front)
    (rearOpens : OpensParameter rear)
    (sameShape : (left.annotation.isSome, left.hasDefault) =
      (right.annotation.isSome, right.hasDefault))
    (sameLead : front ++ left.lead = rear ++ right.lead) (sameFinal : left.final = right.final) :
    front = rear ∧ left = right := by
  obtain ⟨leftName, leftAnnotation, hasDefault⟩ := left
  obtain ⟨rightName, rightAnnotation, rightDefault⟩ := right
  obtain ⟨sameAnnotated, rfl⟩ := Prod.mk.inj sameShape
  -- The marks of one shape are the same and cancel, so that what is left ends with the name.
  have named : front ++ leftName.toList = rear ++ rightName.toList →
      front = rear ∧ leftName = rightName :=
    name_unique ofLeft.name ofRight.name frontOpens rearOpens
  cases leftAnnotation with
  | none =>
      obtain rfl : rightAnnotation = none := by simpa using sameAnnotated
      cases hasDefault with
      | false =>
          have sameFront : front = rear := by simpa [lead] using sameLead
          have sameName : leftName = rightName := String.toList_inj.mp sameFinal
          exact ⟨sameFront, by rw [sameName]⟩
      | true =>
          simp only [lead, ← List.append_assoc] at sameLead
          obtain ⟨sameFront, rfl⟩ := named (List.append_cancel_right sameLead)
          exact ⟨sameFront, rfl⟩
  | some leftType =>
      obtain ⟨rightType, rfl⟩ := Option.isSome_iff_exists.mp sameAnnotated.symm
      cases hasDefault with
      | false =>
          simp only [lead, ← List.append_assoc] at sameLead
          obtain ⟨sameFront, rfl⟩ := named (List.append_cancel_right sameLead)
          have sameType : leftType = rightType := sameFinal
          exact ⟨sameFront, by rw [sameType]⟩
      | true =>
          simp only [lead, ← List.append_assoc] at sameLead
          have opens : ∀ text : List Char, OpensChoice (text ++ [':', ' ']) :=
            opensChoice_append_pair (by decide) (by decide)
          obtain ⟨sameNamed, rfl⟩ := typeText_unique (ofLeft.annotation leftType rfl)
            (ofRight.annotation rightType rfl) (opens _) (opens _)
            (List.append_cancel_right sameLead)
          obtain ⟨sameFront, rfl⟩ := named (List.append_cancel_right sameNamed)
          exact ⟨sameFront, rfl⟩

/-- Behind what opens a parameter, the parameter is known from the end of the text. -/
theorem text_unique {left right : Shown} (ofLeft : left.IsLegible) (ofRight : right.IsLegible)
    {front rear : List Char} (frontOpens : OpensParameter front) (rearOpens : OpensParameter rear)
    (same : front ++ left.text = rear ++ right.text) : front = rear ∧ left = right := by
  rw [text, text, ← List.append_assoc, ← List.append_assoc] at same
  obtain ⟨sameLead, sameFinal⟩ := typeText_unique ofLeft.isTypeText_final
    ofRight.isTypeText_final (opensChoice_lead frontOpens left) (opensChoice_lead rearOpens right)
    same
  have sameShape := congrArg shape sameLead
  rw [shape_lead frontOpens, shape_lead rearOpens] at sameShape
  exact lead_unique ofLeft ofRight frontOpens rearOpens sameShape sameLead sameFinal

theorem IsLegible.exists_last {shown : Shown} (legible : shown.IsLegible) :
    ∃ front c, shown.text = front ++ [c] ∧ closesType c = true := by
  obtain ⟨front, c, divided, closes⟩ := legible.isTypeText_final.exists_last
  refine ⟨shown.lead ++ front, c, ?_, closes⟩
  rw [text, divided, List.append_assoc]

end Shown

/-! ## The parts of a list -/

namespace Piece

/-- A part of a parameter list may stand behind the text. -/
def Opens (front : List Char) : Prop :=
  front = [] ∨ ∃ before, front = before ++ [',', ' ']

private theorem opensParameter_append_stars {front : List Char} (opens : Opens front)
    (stars : Nat) : OpensParameter (front ++ List.replicate stars '*') := by
  cases stars with
  | zero =>
      rw [List.replicate_zero, List.append_nil]
      exact opens.imp_right .inr
  | succ fewer =>
      rw [List.replicate_succ', ← List.append_assoc]
      exact .inr (.inl ⟨_, rfl⟩)

private theorem ends_of_opens {front : List Char} (opens : Opens front) :
    Ends (· == '*') front := by
  rcases opens with rfl | ⟨before, rfl⟩
  · exact ends_nil _
  · rw [List.append_cons before]
    exact (ends_append_singleton _).mpr (by decide)

/-- A parameter cannot be confused with a marker, which no type ends with. -/
private theorem named_ne_marker {shown : Shown} (legible : shown.IsLegible) {marker : Char}
    (notType : closesType marker = false) (stars : Nat) (front rear : List Char) :
    front ++ (named stars shown).text ≠ rear ++ [marker] := by
  obtain ⟨before, c, divided, closes⟩ := legible.exists_last
  rw [text, divided, ← List.append_assoc, ← List.append_assoc]
  intro same
  obtain rfl : c = marker := List.singleton_inj.mp (List.append_inj' same rfl).2
  rw [closes] at notType
  cases notType

private theorem named_unique {left right : Shown} (ofLeft : left.IsLegible)
    (ofRight : right.IsLegible) {stars otherStars : Nat} {front rear : List Char}
    (frontOpens : Opens front) (rearOpens : Opens rear)
    (same : front ++ (named stars left).text = rear ++ (named otherStars right).text) :
    front = rear ∧ named stars left = named otherStars right := by
  rw [text, text, ← List.append_assoc, ← List.append_assoc] at same
  obtain ⟨sameStars, rfl⟩ := Shown.text_unique ofLeft ofRight
    (opensParameter_append_stars frontOpens stars)
    (opensParameter_append_stars rearOpens otherStars) same
  have onlyStars : ∀ count, ∀ c ∈ List.replicate count '*', (c == '*') = true := by
    intro count c member
    rw [List.eq_of_mem_replicate member]
    rfl
  obtain ⟨sameFront, sameRun⟩ := run_unique (onlyStars stars) (onlyStars otherStars)
    (ends_of_opens frontOpens) (ends_of_opens rearOpens) sameStars
  have sameCount : stars = otherStars := by simpa using congrArg List.length sameRun
  exact ⟨sameFront, by rw [sameCount]⟩

/-- Behind what opens a part, the part is known from the end of the text. -/
theorem readsBack {piece : Piece} (legible : piece.IsLegible) :
    ReadsBack text Opens IsLegible piece := by
  intro other otherLegible front rear frontOpens rearOpens same
  cases piece with
  | slash =>
      cases other with
      | slash => exact ⟨List.append_cancel_right same, rfl⟩
      | star => exact absurd (List.append_inj' same rfl).2 (by decide)
      | named stars shown =>
          exact absurd same.symm (named_ne_marker otherLegible (by decide) stars rear front)
  | star =>
      cases other with
      | slash => exact absurd (List.append_inj' same rfl).2 (by decide)
      | star => exact ⟨List.append_cancel_right same, rfl⟩
      | named stars shown =>
          exact absurd same.symm (named_ne_marker otherLegible (by decide) stars rear front)
  | named stars shown =>
      cases other with
      | slash => exact absurd same (named_ne_marker legible (by decide) stars front rear)
      | star => exact absurd same (named_ne_marker legible (by decide) stars front rear)
      | named otherStars otherShown =>
          exact named_unique legible otherLegible frontOpens rearOpens same

theorem text_ne_nil {piece : Piece} (legible : piece.IsLegible) : piece.text ≠ [] := by
  cases piece with
  | slash => exact List.cons_ne_nil _ _
  | star => exact List.cons_ne_nil _ _
  | named stars shown =>
      obtain ⟨front, c, divided, -⟩ := Shown.IsLegible.exists_last legible
      simp [text, divided]

/-- The text of a parameter list. -/
def joined (pieces : List Piece) : List Char :=
  [',', ' '].intercalate (pieces.map text)

private theorem joined_ne_nil {pieces : List Piece} (nonempty : pieces ≠ [])
    (legible : ∀ piece ∈ pieces, piece.IsLegible) : joined pieces ≠ [] := by
  obtain ⟨first, rest, rfl⟩ := List.exists_cons_of_ne_nil nonempty
  obtain ⟨c, inText⟩ := List.exists_mem_of_ne_nil _ (text_ne_nil (legible first List.mem_cons_self))
  exact List.ne_nil_of_mem
    (Intercalate.mem_of_mem_part (List.mem_map_of_mem List.mem_cons_self) inText)

/-- A text is that of one list of parts only. -/
theorem joined_inj {lefts rights : List Piece} (ofLefts : ∀ left ∈ lefts, left.IsLegible)
    (ofRights : ∀ right ∈ rights, right.IsLegible) :
    joined lefts = joined rights ↔ lefts = rights := by
  refine ⟨fun same => ?_, congrArg joined⟩
  by_cases leftEmpty : lefts = []
  · by_contra differ
    have rightNonempty : rights ≠ [] := fun empty => differ (leftEmpty.trans empty.symm)
    exact joined_ne_nil rightNonempty ofRights (same.symm.trans (by rw [leftEmpty]; rfl))
  by_cases rightEmpty : rights = []
  · exact absurd (same.trans (by rw [rightEmpty]; rfl)) (joined_ne_nil leftEmpty ofLefts)
  have start : ∀ front : List Char, front = [] → Opens front := fun _ => .inl
  have between : ∀ front : List Char, Opens (front ++ [',', ' ']) := fun front => .inr ⟨front, rfl⟩
  have apart : ∀ front : List Char, ¬ front ++ [',', ' '] = [] := by simp
  exact (Backward.joined_unique start between apart
    (fun left member => readsBack (ofLefts left member)) ofRights leftEmpty rightEmpty rfl rfl
    (by simpa [joined] using same)).2

end Piece

end Decl

end TypeStub
