import TypeStub.Declaration.Callable
import TypeStub.Proofs.Documentation.Directive
import TypeStub.Proofs.Outcome
import TypeStub.Proofs.Signature

/-!
Contract: what each builder of callables and attributes gives when it succeeds.

Owns: one equivalence for each step, which says all that the step checks and all that it gives.

Later modules use these and open no builder again.
-/

namespace TypeStub

namespace Decl

/-! ## Types in documentation -/

theorem any_named_iff {parameters : List TypeStub.Parameter} {name : String} :
    (parameters.any fun parameter => parameter.name = name) = true ↔
      ∃ parameter ∈ parameters, parameter.name = name := by
  simp

theorem resolveDirective_eq_ok_iff {callable : String} {parameters : List TypeStub.Parameter}
    {directive : TypeDirective} {found : Resolved (String × TypeExpr)} :
    resolveDirective callable parameters directive = .ok found ↔
      (∃ parameter ∈ parameters, parameter.name = directive.name) ∧
        ∃ type, TypeExpr.parse directive.expr = .ok type ∧
          type.map (fun e => (directive.name, e)) = found := by
  rw [← any_named_iff, resolveDirective]
  split
  · rename_i isKnown
    cases TypeExpr.parse directive.expr <;> simp [isKnown]
  · rename_i notKnown
    simp [notKnown]

theorem resolveReturn_none {found : Resolved (Option TypeExpr)} :
    resolveReturn none = .ok found ↔ Resolved.bare none = found := by
  simp [resolveReturn]

theorem resolveReturn_some {text : String} {found : Resolved (Option TypeExpr)} :
    resolveReturn (some text) = .ok found ↔
      ∃ type, TypeExpr.parse text = .ok type ∧ type.map some = found := by
  rw [resolveReturn]
  cases TypeExpr.parse text <;> simp

theorem mem_of_lastType {types : List (String × TypeExpr)} {name : String} {type : TypeExpr}
    (found : lastType types name = some type) : (name, type) ∈ types := by
  obtain ⟨entry, isLast, rfl⟩ := Option.map_eq_some_iff.mp found
  have sameName : entry.1 = name := by simpa using List.find?_some isLast
  rw [← sameName]
  exact List.mem_reverse.mp (List.mem_of_find?_eq_some isLast)

theorem lastType_eq_some_iff {types : List (String × TypeExpr)}
    (distinct : (types.map (·.1)).Nodup) {name : String} {type : TypeExpr} :
    lastType types name = some type ↔ (name, type) ∈ types := by
  constructor
  · exact mem_of_lastType
  · intro member
    have backwards : (types.reverse.map (·.1)).Nodup := by
      rw [List.map_reverse]
      exact List.nodup_reverse.mpr distinct
    rw [lastType, (Outcome.find?_key_eq_some_iff backwards).mpr
      ⟨List.mem_reverse.mpr member, rfl⟩, Option.map_some]

theorem mem_nonempty {text found : String} (member : found ∈ nonempty text) : found = text := by
  unfold nonempty at member
  split at member
  · cases member
  · cases member
    rfl

/-! ## Callables -/

namespace Callable

variable {name : String} {kind : CallableKind} {built : Resolved Callable}

/-- The types in documentation are all read, and each parameter gets the last of its own. -/
theorem ofParts_eq_ok_iff {real : List TypeStub.Parameter} {parts : Documentation.Parts} :
    ofParts name kind real parts = .ok built ↔
      ∃ directives returns,
        parts.paramTypes.mapM (resolveDirective name real) = .ok directives ∧
          resolveReturn parts.rtype = .ok returns ∧
          ⟨⟨name, real.map (annotate (Resolved.all directives).value), returns.value,
              if kind.keepsDocstring then nonempty parts.description else none⟩,
            (Resolved.all directives).namespaces ∪ returns.namespaces⟩ = built := by
  rw [ofParts]
  cases parts.paramTypes.mapM (resolveDirective name real) with
  | error fault => simp
  | ok directives =>
      cases resolveReturn parts.rtype with
      | error fault => simp
      | ok returns => simp

theorem build_none_eq_ok_iff {parameters : List TypeStub.Parameter} :
    build name parameters none kind = .ok built ↔
      Signature.validate (kind.realParameters parameters) = .ok () ∧
        .bare ⟨name, (kind.realParameters parameters).map (annotate []), none, none⟩ = built := by
  simp only [build]
  cases Signature.validate (kind.realParameters parameters) <;> simp

theorem build_some_eq_ok_iff {parameters : List TypeStub.Parameter} {raw : String} :
    build name parameters (some raw) kind = .ok built ↔
      Signature.validate (kind.realParameters parameters) = .ok () ∧
        ∃ parts, Documentation.split (Documentation.dedent raw) = .ok parts ∧
          ofParts name kind (kind.realParameters parameters) parts = .ok built := by
  simp only [build]
  cases Signature.validate (kind.realParameters parameters) with
  | error defect => simp
  | ok checked => cases Documentation.split (Documentation.dedent raw) <;> simp

private theorem isName_of_mem_types {callable doc : String} {real : List TypeStub.Parameter}
    {directives : List (Resolved (String × TypeExpr))}
    (accepted : (Documentation.paramTypes doc).mapM (resolveDirective callable real) =
      .ok directives) {entry : String × TypeExpr}
    (member : entry ∈ (Resolved.all directives).value) : Directive.IsName entry.1.toList := by
  obtain ⟨resolved, inDirectives, rfl⟩ := List.mem_map.mp member
  obtain ⟨directive, inDoc, isResolved⟩ := Outcome.exists_of_mem_mapM accepted inDirectives
  obtain ⟨-, type, -, rfl⟩ := resolveDirective_eq_ok_iff.mp isResolved
  obtain ⟨row, -, isDirective⟩ := List.mem_filterMap.mp inDoc
  exact Directive.isName_of_typeOfRow? isDirective

/-- The callable is built under the name asked for, from a valid signature, and only
identifiers are given types. -/
theorem exists_types_of_build {parameters : List TypeStub.Parameter} {doc : Option String}
    (accepted : build name parameters doc kind = .ok built) :
    Signature.validate (kind.realParameters parameters) = .ok () ∧ built.value.name = name ∧
      ∃ types, (∀ entry ∈ types, Directive.IsName entry.1.toList) ∧
        built.value.parameters = (kind.realParameters parameters).map (annotate types) := by
  cases doc with
  | none =>
      obtain ⟨valid, rfl⟩ := build_none_eq_ok_iff.mp accepted
      exact ⟨valid, rfl, [], nofun, rfl⟩
  | some raw =>
      obtain ⟨valid, parts, divided, ofParts⟩ := build_some_eq_ok_iff.mp accepted
      obtain ⟨directives, returns, typed, -, rfl⟩ := ofParts_eq_ok_iff.mp ofParts
      obtain ⟨-, sameTypes, -, -⟩ := Documentation.split_eq_ok_iff.mp divided
      rw [sameTypes] at typed
      exact ⟨valid, rfl, _, fun entry => isName_of_mem_types typed, rfl⟩

end Callable

/-! ## Attributes -/

namespace Accessor

variable {name : String} {built : Resolved Accessor}

theorem build_none_eq_ok_iff :
    build name none = .ok built ↔ .bare ⟨name, none, none⟩ = built := by
  simp [build]

theorem build_some_eq_ok_iff {raw : String} :
    build name (some raw) = .ok built ↔
      ∃ expr type text, Documentation.rtype (Documentation.dedent raw) = .ok expr ∧
        resolveReturn expr = .ok type ∧
        Documentation.returnDoc (Documentation.dedent raw) = .ok text ∧
        ⟨⟨name, type.value, text.bind nonempty⟩, type.namespaces⟩ = built := by
  simp only [build]
  cases Documentation.rtype (Documentation.dedent raw) with
  | error ambiguity => simp
  | ok expr =>
      cases returned : resolveReturn expr with
      | error fault => simp [returned]
      | ok type =>
          cases Documentation.returnDoc (Documentation.dedent raw) with
          | error ambiguity => simp [returned]
          | ok text => simp [returned]

theorem name_of_build {doc : Option String} (accepted : build name doc = .ok built) :
    built.value.name = name := by
  cases doc with
  | none => rw [← build_none_eq_ok_iff.mp accepted, Resolved.bare]
  | some raw =>
      obtain ⟨expr, type, text, -, -, -, rfl⟩ := build_some_eq_ok_iff.mp accepted
      rfl

end Accessor

end Decl

end TypeStub
