import TypeStub.Proofs.TypeExpr.Line
import TypeStub.Proofs.TypeExpr.Name
import TypeStub.Proofs.TypeExpr.Normal
import TypeStub.Proofs.TypeExpr.RoundTrip

/-!
Contract: what can be relied on when a text has been read as a type.

Owns:
- `TypeExpr.HasForm`, what holds of each subtree by its root alone;
- `TypeExpr.hasForm_or_refused`, that a text is read as a type of that form at every depth or
  refused by its own name;
- `TypeExpr.namespaces_of_parse`, that a type comes with exactly the namespaces it refers to.

The reader keeps no record of spelling: neither the form nor the namespaces depend on whether
an alternative was one token or several, on parentheses around it or on white space.
-/

namespace TypeStub.TypeExpr

/-! ## Form -/

/-- No white space is in the text. -/
def IsUnspaced (text : List Char) : Prop :=
  ∀ c ∈ text, Text.isBlank c = false

/-- The type is a name, a literal, or one of these with arguments in brackets. -/
def isValueRoot : TypeExpr → Bool
  | .name _ => true
  | .literal _ => true
  | .subscript _ _ => true
  | _ => false

/-- What holds of a type that has been read, as far as its root tells. -/
def HasForm : TypeExpr → Prop
  | .name path =>
      (∃ first later, path.toList = joinSegments (first :: later) ∧
        isIdentifier first = true ∧ ∀ segment ∈ later, isSegment segment = true) ∧
        IsUnspaced path.toList
  | .literal text => IsLiteral text.toList ∧ IsUnspaced text.toList
  | .generic .tuple arguments => 1 ≤ arguments.length
  | .generic _ arguments => arguments.length = 1
  | .union alternatives => 2 ≤ alternatives.length
  | .subscript base arguments =>
      1 ≤ arguments.length ∧
        ∀ part, Within part (.subscript base arguments) → part.isValueRoot = true

theorem IsValue.isValueRoot {e : TypeExpr} (isValue : IsValue e) : e.isValueRoot = true := by
  cases isValue <;> rfl

theorem IsValue.isUnspaced {e : TypeExpr} (isValue : IsValue e) : IsUnspaced e.inlineText := by
  intro c member
  have plain := isValue.isInline_inlineText c member
  simp only [isInline, Bool.and_eq_true, Bool.not_eq_true'] at plain
  exact plain.1.1.1

theorem IsValue.hasForm {e : TypeExpr} (isValue : IsValue e) : HasForm e := by
  have unspaced := isValue.isUnspaced
  have within : ∀ part, Within part e → part.isValueRoot = true :=
    fun part inside => (isValue.of_within inside).isValueRoot
  cases isValue with
  | name dotted => exact ⟨isDottedName_iff.mp dotted, by simpa using unspaced⟩
  | number digits => exact ⟨.inl digits, by simpa using unspaced⟩
  | quoted quoted => exact ⟨.inr (.inl quoted), by simpa using unspaced⟩
  | ellipsis dots => exact ⟨.inr (.inr dots), by simpa using unspaced⟩
  | subscript ofBase nonempty ofArguments => exact ⟨List.length_pos_iff.mpr nonempty, within⟩

theorem WellFormed.hasForm {e : TypeExpr} (wellFormed : WellFormed e) : HasForm e := by
  cases wellFormed with
  | value isValue => exact isValue.hasForm
  | @generic ctor arguments taken nonempty ofArguments =>
      cases ctor with
      | iter => exact beq_iff_eq.mp taken
      | list => exact beq_iff_eq.mp taken
      | tuple => exact List.length_pos_iff.mpr nonempty
  | union several ofAlternatives => exact several

/-! ## Reading -/

theorem input_of_parse_eq_error {text : String} {malformed : Malformed}
    (refused : parse text = .error malformed) :
    malformed.input = String.ofList (Text.trim text.toList) := by
  rw [parse] at refused
  split at refused
  · cases refused
    rfl
  · cases refused

/-- A text is read as a type that has the form at every depth, or it is refused, and then the
reason comes with the text without the white space around it. -/
theorem hasForm_or_refused (text : String) :
    (∃ found, parse text = .ok found ∧ ∀ part, Within part found.value → HasForm part) ∨
      ∃ reason, parse text = .error ⟨String.ofList (Text.trim text.toList), reason⟩ := by
  cases outcome : parse text with
  | ok found =>
      obtain ⟨wellFormed, -⟩ := wellFormed_of_parse outcome
      exact .inl ⟨found, rfl, fun part inside => (wellFormed.of_within inside).hasForm⟩
  | error malformed =>
      refine .inr ⟨malformed.reason, ?_⟩
      rw [← input_of_parse_eq_error outcome]

/-- A type comes with the namespaces that its dotted names and iterators refer to and no
others, however it is spelled. -/
theorem namespaces_of_parse {text : String} {found : Resolved TypeExpr}
    (accepted : parse text = .ok found) :
    (∀ name, name ∈ found.namespaces ↔ found.value.Refers name) ∧
      ∀ other again, parse other = .ok again → again.value = found.value →
        again.namespaces = found.namespaces := by
  refine ⟨fun name => mem_namespaces_of_parse accepted, ?_⟩
  intro other again acceptedAgain same
  ext name
  rw [mem_namespaces_of_parse acceptedAgain, same, mem_namespaces_of_parse accepted]

/-- A dotted name in a choice and an iterator around it, each with its namespace. -/
theorem namespaces_of_parse_nestedChoice :
    parse "iter(int or (xsd.String or dict['ab', ...]) or tuple(_x, 1.5))" =
        .ok ⟨nestedChoice, .ofList ["typing", "xsd"]⟩ ∧
      ∀ name, name ∈ NameSet.ofList ["typing", "xsd"] ↔ nestedChoice.Refers name := by
  have isDoc : nestedChoice.toDoc =
      "iter(int or (xsd.String or dict['ab', ...]) or tuple(_x, 1.5))" := by decide
  have required : nestedChoice.namespaces = .ofList ["typing", "xsd"] := by decide
  have accepted := documentable_nestedChoice.wellFormed.parse_toDoc_eq_resolved_iff.mpr
    documentable_nestedChoice.rereadable
  rw [isDoc, resolved, required] at accepted
  exact ⟨accepted, (namespaces_of_parse accepted).1⟩

end TypeStub.TypeExpr
