import TypeStub.Proofs.Declaration.Imports

/-!
Contract: what building a callable comes to, for any parameters and any documentation.

Owns:
- `CallableKind.realParameters_eq_iff`, which callables get a further parameter;
- `Decl.Accepts` and `Decl.Refuses`, the two fates of a type directive;
- `Decl.Annotates`, the type that directives give to a name;
- `Callable.Declares`, what the declaration of a callable says;
- `Callable.Gives`, the outcome of a build by the first thing that decides it, and
  `Callable.build_eq_iff`, that a build has this outcome and no other.

A callable without documentation is built like one whose documentation is empty.
-/

namespace TypeStub

/-! ## Real parameters -/

/-- A constructor whose first parameter is not called `self` has a positional-only `self` in front
of the parameters of its signature. Any other callable has these alone. -/
theorem CallableKind.realParameters_eq_iff {kind : CallableKind} {parameters real : List Parameter} :
    kind.realParameters parameters = real ↔
      (kind = .constructor ∧ (∀ first rest, parameters = first :: rest → first.name ≠ "self") ∧
          real = ⟨"self", .positionalOnly, none⟩ :: parameters) ∨
        ((kind ≠ .constructor ∨ ∃ first rest, parameters = first :: rest ∧ first.name = "self") ∧
          real = parameters) := by
  rw [eq_comm, realParameters]
  by_cases constructs : kind = .constructor
  · cases parameters with
    | nil => simp [constructs, Parameter.plain]
    | cons first rest =>
        by_cases bound : first.name = "self"
        · simp [constructs, bound]
        · simp [constructs, bound, Parameter.plain]
  · simp [constructs]

namespace Decl

open Documentation (paramTypes returnRows)

/-! ## Directives -/

/-- The directive gives one of the parameters a type that can be read. -/
structure Accepts (real : List TypeStub.Parameter) (directive : TypeDirective) : Prop where
  known : ∃ parameter ∈ real, parameter.name = directive.name
  readable : ∃ found, TypeExpr.parse directive.expr = .ok found

/-- The directive names no parameter, or it gives one of them what is no type. -/
inductive Refuses (callable : String) (real : List TypeStub.Parameter)
    (directive : TypeDirective) : Fault → Prop
  | unknown (absent : ∀ parameter ∈ real, parameter.name ≠ directive.name) :
      Refuses callable real directive (.unknownParameter callable directive.name)
  | malformed (known : ∃ parameter ∈ real, parameter.name = directive.name)
      {malformed : Malformed} (refused : TypeExpr.parse directive.expr = .error malformed) :
      Refuses callable real directive (.malformedType malformed)

theorem exists_resolveDirective_iff (callable : String) {real : List TypeStub.Parameter}
    {directive : TypeDirective} :
    (∃ found, resolveDirective callable real directive = .ok found) ↔ Accepts real directive := by
  constructor
  · rintro ⟨found, accepted⟩
    obtain ⟨known, type, isType, -⟩ := resolveDirective_eq_ok_iff.mp accepted
    exact ⟨known, type, isType⟩
  · rintro ⟨known, type, isType⟩
    exact ⟨_, resolveDirective_eq_ok_iff.mpr ⟨known, type, isType, rfl⟩⟩

theorem resolveDirective_eq_error_iff {callable : String} {real : List TypeStub.Parameter}
    {directive : TypeDirective} {fault : Fault} :
    resolveDirective callable real directive = .error fault ↔
      Refuses callable real directive fault := by
  unfold resolveDirective
  constructor
  · intro refused
    split at refused
    · rename_i known
      cases reads : TypeExpr.parse directive.expr with
      | error malformed =>
          rw [reads] at refused
          cases refused
          exact .malformed (any_named_iff.mp known) reads
      | ok found =>
          rw [reads] at refused
          cases refused
    · rename_i unknown
      cases refused
      apply Refuses.unknown
      intro parameter member same
      exact unknown (any_named_iff.mpr ⟨parameter, member, same⟩)
  · intro refuses
    cases refuses with
    | unknown absent =>
        apply if_neg
        intro known
        obtain ⟨parameter, member, same⟩ := any_named_iff.mp known
        exact absent parameter member same
    | malformed known refused => rw [if_pos (any_named_iff.mpr known), refused]

theorem exists_directives_iff (callable : String) {real : List TypeStub.Parameter}
    {directives : List TypeDirective} :
    (∃ found, directives.mapM (resolveDirective callable real) = .ok found) ↔
      ∀ directive ∈ directives, Accepts real directive := by
  rw [Outcome.exists_mapM_iff]
  simp only [exists_resolveDirective_iff]

theorem resolveReturn_eq_error_iff {expr : Option String} {fault : Fault} :
    resolveReturn expr = .error fault ↔
      ∃ text ∈ expr.toList, ∃ malformed, TypeExpr.parse text = .error malformed ∧
        .malformedType malformed = fault := by
  cases expr with
  | none => simp [resolveReturn]
  | some text =>
      rw [resolveReturn]
      cases reads : TypeExpr.parse text <;> simp [reads]

/-! ## The last directive of a name -/

/-- The type that directives give to a name: that of the last one with the name. -/
inductive Annotates (directives : List TypeDirective) (name : String) : Option TypeExpr → Prop
  | unnamed (absent : ∀ directive ∈ directives, directive.name ≠ name) :
      Annotates directives name none
  | last {before after : List TypeDirective} {directive : TypeDirective}
      {found : Resolved TypeExpr} (divided : directives = before ++ directive :: after)
      (names : directive.name = name) (isLast : ∀ later ∈ after, later.name ≠ name)
      (reads : TypeExpr.parse directive.expr = .ok found) :
      Annotates directives name (some found.value)

namespace Annotates

variable {directives : List TypeDirective} {name : String} {type : Option TypeExpr}

theorem eq_of_last (annotates : Annotates directives name type) :
    type = (directives.reverse.find? fun directive => directive.name = name).bind
      fun directive => (TypeExpr.parse directive.expr).toOption.map (·.value) := by
  cases annotates with
  | unnamed absent =>
      have missing : directives.reverse.find? (fun directive => directive.name = name) = none := by
        simpa using absent
      rw [missing, Option.bind_none]
  | @last before after directive found divided names isLast reads =>
      have missing : after.reverse.find? (fun directive => directive.name = name) = none := by
        simpa using isLast
      have isFound : directives.reverse.find? (fun directive => directive.name = name) =
          some directive := by
        rw [divided]
        simp [missing, names]
      rw [isFound, Option.bind_some, reads]
      rfl

theorem unique {other : Option TypeExpr} (left : Annotates directives name type)
    (right : Annotates directives name other) : type = other :=
  left.eq_of_last.trans right.eq_of_last.symm

theorem cons_of_some {found : TypeExpr} (annotates : Annotates directives name (some found))
    (directive : TypeDirective) : Annotates (directive :: directives) name (some found) := by
  cases annotates with
  | @last before after last found divided names isLast reads =>
      have longer : directive :: directives = (directive :: before) ++ last :: after := by
        rw [divided, List.cons_append]
      exact .last longer names isLast reads

theorem not_mem_of_none (annotates : Annotates directives name none) :
    ∀ directive ∈ directives, directive.name ≠ name := by
  cases annotates with
  | unnamed absent => exact absent

end Annotates

theorem lastType_cons (entry : String × TypeExpr) (types : List (String × TypeExpr))
    (name : String) :
    lastType (entry :: types) name =
      (lastType types name).or (if entry.1 = name then some entry.2 else none) := by
  unfold lastType
  rw [List.reverse_cons, List.find?_append, Option.map_or]
  by_cases same : entry.1 = name <;> simp [same]

theorem annotates_lastType {callable : String} {real : List TypeStub.Parameter}
    {directives : List TypeDirective} {resolved : List (Resolved (String × TypeExpr))}
    (steps : List.Forall₂ (fun directive found =>
      resolveDirective callable real directive = .ok found) directives resolved) (name : String) :
    Annotates directives name (lastType (resolved.map (·.value)) name) := by
  induction steps with
  | nil => exact .unnamed (by simp)
  | @cons directive found directives resolved first later inductionHypothesis =>
      obtain ⟨-, type, reads, rfl⟩ := resolveDirective_eq_ok_iff.mp first
      rw [List.map_cons, lastType_cons]
      cases ofLater : lastType (resolved.map (·.value)) name with
      | some last =>
          rw [ofLater] at inductionHypothesis
          exact inductionHypothesis.cons_of_some directive
      | none =>
          rw [ofLater] at inductionHypothesis
          have absent := inductionHypothesis.not_mem_of_none
          rw [Option.none_or]
          by_cases same : directive.name = name
          · rw [Resolved.map, if_pos same]
            have divided : directive :: directives = [] ++ directive :: directives := rfl
            exact .last divided same absent reads
          · rw [Resolved.map, if_neg same]
            exact .unnamed (List.forall_mem_cons.mpr ⟨same, absent⟩)

namespace Callable

/-! ## Declarations -/

/-- The text that a callable is documented with. -/
def documentation (doc : Option String) : String :=
  (doc.map Documentation.dedent).getD ""

@[simp] theorem documentation_none : documentation none = "" :=
  rfl

@[simp] theorem documentation_some (raw : String) :
    documentation (some raw) = Documentation.dedent raw :=
  rfl

/-- The declared parameter is the real one, with the type that directives give to its name. -/
structure Retains (directives : List TypeDirective) (original : TypeStub.Parameter)
    (declared : Parameter) : Prop where
  name : declared.name = original.name
  kind : declared.kind = original.kind
  default : declared.default = original.default
  annotation : Annotates directives original.name declared.annotation

/-- What is declared, by the parameters and the documentation of the callable. -/
structure Declares (name : String) (kind : CallableKind) (real : List TypeStub.Parameter)
    (doc : String) (built : Resolved Callable) : Prop where
  name : built.value.name = name
  parameters : List.Forall₂ (Retains (paramTypes doc)) real built.value.parameters
  returns : List.Forall₂ (fun text type => ∃ names, TypeExpr.parse text = .ok ⟨type, names⟩)
    (returnRows .rtype doc) built.value.returns.toList
  docstring : ∀ text, built.value.doc = some text ↔
    text = Documentation.description doc ∧ text ≠ "" ∧ (kind = .function ∨ kind = .method)
  namespaces : ∀ namespaceName, namespaceName ∈ built.namespaces ↔
    ∃ text ∈ (paramTypes doc).map (·.expr) ++ returnRows .rtype doc,
      ∃ found, TypeExpr.parse text = .ok found ∧ namespaceName ∈ found.namespaces

theorem Retains.unique {directives : List TypeDirective} {original : TypeStub.Parameter}
    {declared other : Parameter} (left : Retains directives original declared)
    (right : Retains directives original other) : declared = other := by
  obtain ⟨name, kind, default, annotation⟩ := declared
  obtain ⟨otherName, otherKind, otherDefault, otherAnnotation⟩ := other
  obtain ⟨rfl, rfl, rfl, ofLeft⟩ := left
  obtain ⟨rfl, rfl, rfl, ofRight⟩ := right
  exact congrArg (Parameter.mk _ _ _) (ofLeft.unique ofRight)

theorem Declares.unique {name : String} {kind : CallableKind} {real : List TypeStub.Parameter}
    {doc : String} {built other : Resolved Callable} (left : Declares name kind real doc built)
    (right : Declares name kind real doc other) : built = other := by
  have parameters : built.value.parameters = other.value.parameters := by
    refine Relator.RightUnique.forall₂ ?_ left.parameters right.parameters
    exact fun _ _ _ => Retains.unique
  have returns : built.value.returns = other.value.returns := by
    have sameList : built.value.returns.toList = other.value.returns.toList := by
      refine Relator.RightUnique.forall₂ ?_ left.returns right.returns
      rintro text type otherType ⟨names, reads⟩ ⟨otherNames, again⟩
      rw [reads] at again
      cases again
      rfl
    cases ofBuilt : built.value.returns <;> cases ofOther : other.value.returns <;>
      simp_all
  have docstring : built.value.doc = other.value.doc := by
    apply Option.ext
    intro text
    rw [left.docstring, right.docstring]
  have namespaces : built.namespaces = other.namespaces := by
    apply NameSet.ext
    intro namespaceName
    rw [left.namespaces, right.namespaces]
  obtain ⟨⟨_, _, _, _⟩, _⟩ := built
  obtain ⟨⟨_, _, _, _⟩, _⟩ := other
  have sameName := left.name.trans right.name.symm
  simp_all

/-! ## Stages of a build -/

section

variable {name : String} {parameters : List TypeStub.Parameter} {doc : Option String}
  {kind : CallableKind}

/-- Documentation that says nothing gives no types and no docstring. -/
theorem ofParts_empty (real : List TypeStub.Parameter) :
    ofParts name kind real ⟨"", [], none, none⟩ =
      .ok (.bare ⟨name, real.map (annotate []), none, none⟩) := by
  apply ofParts_eq_ok_iff.mpr
  refine ⟨[], .bare none, rfl, rfl, ?_⟩
  have undocumented : (if kind.keepsDocstring then nonempty "" else none) = none := by
    cases kind <;> rfl
  rw [undocumented]
  rfl

theorem build_of_invalid {defect : SignatureDefect}
    (invalid : Signature.validate (kind.realParameters parameters) = .error defect) :
    build name parameters doc kind = .error (.invalidSignature name defect) := by
  simp only [build, invalid]

theorem build_of_ambiguity (valid : Signature.validate (kind.realParameters parameters) = .ok ())
    {ambiguity : AmbiguousReturn}
    (undivided : Documentation.split (documentation doc) = .error ambiguity) :
    build name parameters doc kind = .error (.ambiguousReturn ambiguity) := by
  cases doc with
  | none =>
      rw [documentation_none, Documentation.split_empty] at undivided
      cases undivided
  | some raw =>
      rw [documentation_some] at undivided
      simp only [build, valid, undivided]

theorem build_of_parts (valid : Signature.validate (kind.realParameters parameters) = .ok ())
    {parts : Documentation.Parts}
    (divided : Documentation.split (documentation doc) = .ok parts) :
    build name parameters doc kind = ofParts name kind (kind.realParameters parameters) parts := by
  cases doc with
  | none =>
      rw [documentation_none, Documentation.split_empty] at divided
      cases divided
      simp only [build, valid, ofParts_empty]
  | some raw =>
      rw [documentation_some] at divided
      simp only [build, valid, divided]

/-- The directives are read first, and then the type of the value returned. -/
theorem ofParts_eq_error_iff {real : List TypeStub.Parameter} {parts : Documentation.Parts}
    {fault : Fault} :
    ofParts name kind real parts = .error fault ↔
      parts.paramTypes.mapM (resolveDirective name real) = .error fault ∨
        (∀ directive ∈ parts.paramTypes, Accepts real directive) ∧
          resolveReturn parts.rtype = .error fault := by
  rw [← exists_directives_iff name, ofParts]
  cases parts.paramTypes.mapM (resolveDirective name real) with
  | error other => simp
  | ok directives => cases resolveReturn parts.rtype <;> simp

private theorem docstring_iff {doc text : String} :
    (if kind.keepsDocstring then nonempty doc else none) = some text ↔
      text = doc ∧ text ≠ "" ∧ (kind = .function ∨ kind = .method) := by
  have keeps : kind.keepsDocstring = true ↔ kind = .function ∨ kind = .method := by
    cases kind <;> simp [CallableKind.keepsDocstring]
  rw [← keeps, Option.ite_none_right_eq_some, nonempty, Option.ite_none_left_eq_some,
    String.isEmpty_iff, Option.some.injEq]
  constructor
  · rintro ⟨kept, nonempty, rfl⟩
    exact ⟨rfl, nonempty, kept⟩
  · rintro ⟨rfl, nonempty, kept⟩
    exact ⟨kept, nonempty, rfl⟩

private theorem textRefers_iff {text namespaceName : String} :
    TypeExpr.TextRefers text namespaceName ↔
      ∃ found, TypeExpr.parse text = .ok found ∧ namespaceName ∈ found.namespaces := by
  constructor
  · rintro ⟨found, reads, refers⟩
    exact ⟨found, reads, (TypeExpr.mem_namespaces_of_parse reads).mpr refers⟩
  · rintro ⟨found, reads, member⟩
    exact ⟨found, reads, (TypeExpr.mem_namespaces_of_parse reads).mp member⟩

private theorem typeTexts_documentation (doc : Option String) :
    doc.toList.flatMap Documentation.typeTexts =
      (paramTypes (documentation doc)).map (·.expr) ++ returnRows .rtype (documentation doc) := by
  cases doc with
  | none => decide
  | some raw => simp [Documentation.typeTexts, Documentation.returnTexts]

/-- A build that succeeds declares what the parameters and the documentation say. -/
theorem declares_of_build {built : Resolved Callable}
    (accepted : build name parameters doc kind = .ok built) :
    Declares name kind (kind.realParameters parameters) (documentation doc) built := by
  have collects := collects_of_build accepted
  obtain ⟨valid, -, -⟩ := exists_types_of_build accepted
  cases divided : Documentation.split (documentation doc) with
  | error ambiguity =>
      rw [build_of_ambiguity valid divided] at accepted
      cases accepted
  | ok parts =>
      rw [build_of_parts valid divided] at accepted
      obtain ⟨directives, returns, typed, returned, rfl⟩ := ofParts_eq_ok_iff.mp accepted
      obtain ⟨ofText, sameTypes, sameReturn, -⟩ := Documentation.split_eq_ok_iff.mp divided
      rw [sameTypes] at typed
      constructor
      case name => rfl
      case parameters =>
        rw [List.forall₂_map_right_iff, List.forall₂_same]
        intro original member
        exact ⟨rfl, rfl, rfl, annotates_lastType (Outcome.mapM_eq_ok_iff.mp typed) original.name⟩
      case returns =>
        rw [sameReturn]
        cases said : parts.rtype with
        | none =>
            rw [said] at returned
            rw [← resolveReturn_none.mp returned]
            exact .nil
        | some text =>
            rw [said] at returned
            obtain ⟨type, reads, rfl⟩ := resolveReturn_some.mp returned
            exact .cons ⟨type.namespaces, reads⟩ .nil
      case docstring =>
        intro text
        rw [← ofText]
        exact docstring_iff
      case namespaces =>
        -- Overridden directives count too, so these are not the namespaces of the annotations.
        intro namespaceName
        rw [collects.namespaces, typeTexts_documentation]
        simp only [List.not_mem_nil, false_or, textRefers_iff]

/-! ## What a build comes to -/

/-- The outcome of a build, by the first thing that decides it: the signature, then rows about
the value returned that occur several times, then the type directives in order, then the type of
the value returned. -/
inductive Gives (name : String) (kind : CallableKind) (real : List TypeStub.Parameter)
    (doc : String) : Except Fault (Resolved Callable) → Prop
  | invalid {defect : SignatureDefect} (refused : Signature.validate real = .error defect) :
      Gives name kind real doc (.error (.invalidSignature name defect))
  | severalTypes (valid : Signature.validate real = .ok ())
      (several : 1 < (returnRows .rtype doc).length) :
      Gives name kind real doc
        (.error (.ambiguousReturn ⟨.rtype, (returnRows .rtype doc).length⟩))
  | severalTexts (valid : Signature.validate real = .ok ())
      (oneType : (returnRows .rtype doc).length ≤ 1)
      (several : 1 < (returnRows .returns doc).length) :
      Gives name kind real doc
        (.error (.ambiguousReturn ⟨.returns, (returnRows .returns doc).length⟩))
  | directive (valid : Signature.validate real = .ok ())
      (unambiguous : Documentation.Unambiguous doc) {before after : List TypeDirective}
      {first : TypeDirective} (divided : paramTypes doc = before ++ first :: after)
      (earlier : ∀ directive ∈ before, Accepts real directive) {fault : Fault}
      (refuses : Refuses name real first fault) : Gives name kind real doc (.error fault)
  | returned (valid : Signature.validate real = .ok ())
      (unambiguous : Documentation.Unambiguous doc)
      (directives : ∀ directive ∈ paramTypes doc, Accepts real directive) {text : String}
      (said : text ∈ returnRows .rtype doc) {malformed : Malformed}
      (refused : TypeExpr.parse text = .error malformed) :
      Gives name kind real doc (.error (.malformedType malformed))
  | declared (valid : Signature.validate real = .ok ())
      (unambiguous : Documentation.Unambiguous doc)
      (directives : ∀ directive ∈ paramTypes doc, Accepts real directive)
      {built : Resolved Callable} (declares : Declares name kind real doc built) :
      Gives name kind real doc (.ok built)

/-- A build has an outcome that the relation allows. -/
theorem gives_build (name : String) (parameters : List TypeStub.Parameter) (doc : Option String)
    (kind : CallableKind) :
    Gives name kind (kind.realParameters parameters) (documentation doc)
      (build name parameters doc kind) := by
  cases valid : Signature.validate (kind.realParameters parameters) with
  | error defect =>
      rw [build_of_invalid valid]
      exact .invalid valid
  | ok checked =>
      cases divided : Documentation.split (documentation doc) with
      | error ambiguity =>
          rw [build_of_ambiguity valid divided]
          rcases Documentation.split_eq_error_iff.mp divided with ofTypes | ⟨oneType, ofTexts⟩
          · obtain ⟨several, rfl⟩ := Documentation.single_eq_error_iff.mp ofTypes
            exact .severalTypes valid several
          · obtain ⟨several, rfl⟩ := Documentation.single_eq_error_iff.mp ofTexts
            exact .severalTexts valid (Documentation.exists_single_iff.mp oneType) several
      | ok parts =>
          have unambiguous := Documentation.exists_split_iff.mp ⟨parts, divided⟩
          obtain ⟨-, sameTypes, sameReturn, -⟩ := Documentation.split_eq_ok_iff.mp divided
          cases outcome : build name parameters doc kind with
          | ok built =>
              have accepted := outcome
              rw [build_of_parts valid divided] at accepted
              obtain ⟨directives, -, typed, -, -⟩ := ofParts_eq_ok_iff.mp accepted
              rw [sameTypes] at typed
              have accepts := (exists_directives_iff name).mp ⟨directives, typed⟩
              exact .declared valid unambiguous accepts (declares_of_build outcome)
          | error fault =>
              rw [build_of_parts valid divided, ofParts_eq_error_iff, sameTypes] at outcome
              rcases outcome with refused | ⟨accepts, refused⟩
              · obtain ⟨before, first, after, listed, earlier, ofFirst⟩ :=
                  Outcome.mapM_eq_error_iff.mp refused
                apply Gives.directive valid unambiguous listed _
                  (resolveDirective_eq_error_iff.mp ofFirst)
                intro directive member
                exact (exists_resolveDirective_iff name).mp (earlier directive member)
              · obtain ⟨text, said, malformed, unread, rfl⟩ := resolveReturn_eq_error_iff.mp refused
                rw [← sameReturn] at said
                exact .returned valid unambiguous accepts said unread

/-- The relation allows no other outcome. -/
theorem build_of_gives {outcome : Except Fault (Resolved Callable)}
    (gives : Gives name kind (kind.realParameters parameters) (documentation doc) outcome) :
    build name parameters doc kind = outcome := by
  cases gives with
  | invalid refused => exact build_of_invalid refused
  | severalTypes valid several =>
      apply build_of_ambiguity valid
      exact Documentation.split_eq_error_iff.mpr
        (.inl (Documentation.single_eq_error_iff.mpr ⟨several, rfl⟩))
  | severalTexts valid oneType several =>
      apply build_of_ambiguity valid
      exact Documentation.split_eq_error_iff.mpr
        (.inr ⟨Documentation.exists_single_iff.mpr oneType,
          Documentation.single_eq_error_iff.mpr ⟨several, rfl⟩⟩)
  | @directive valid unambiguous before after first listed earlier fault refuses =>
      obtain ⟨parts, divided⟩ := Documentation.exists_split_iff.mpr unambiguous
      obtain ⟨-, sameTypes, -, -⟩ := Documentation.split_eq_ok_iff.mp divided
      rw [build_of_parts valid divided, ofParts_eq_error_iff, sameTypes]
      apply Or.inl
      exact Outcome.mapM_eq_error_iff.mpr ⟨before, first, after, listed,
        fun directive member => (exists_resolveDirective_iff name).mpr (earlier directive member),
        resolveDirective_eq_error_iff.mpr refuses⟩
  | @returned valid unambiguous accepts text said malformed refused =>
      obtain ⟨parts, divided⟩ := Documentation.exists_split_iff.mpr unambiguous
      obtain ⟨-, sameTypes, sameReturn, -⟩ := Documentation.split_eq_ok_iff.mp divided
      rw [build_of_parts valid divided, ofParts_eq_error_iff, sameTypes]
      apply Or.inr
      rw [sameReturn] at said
      exact ⟨accepts, resolveReturn_eq_error_iff.mpr ⟨text, said, malformed, refused, rfl⟩⟩
  | @declared valid unambiguous accepts built declares =>
      cases outcome : build name parameters doc kind with
      | ok other => rw [(declares_of_build outcome).unique declares]
      | error fault =>
          -- Every stage succeeds, so there is no fault left.
          obtain ⟨parts, divided⟩ := Documentation.exists_split_iff.mpr unambiguous
          obtain ⟨-, sameTypes, sameReturn, -⟩ := Documentation.split_eq_ok_iff.mp divided
          rw [build_of_parts valid divided, ofParts_eq_error_iff, sameTypes] at outcome
          rcases outcome with refused | ⟨-, refused⟩
          · obtain ⟨found, accepted⟩ := (exists_directives_iff name).mpr accepts
            rw [accepted] at refused
            cases refused
          · obtain ⟨text, said, malformed, unread, -⟩ := resolveReturn_eq_error_iff.mp refused
            rw [← sameReturn] at said
            obtain ⟨type, -, names, reads⟩ := Outcome.exists_right_of_mem declares.returns said
            rw [unread] at reads
            cases reads

/-- A build has exactly the outcome that the parameters and the documentation give. Which
parameters a callable really has says `CallableKind.realParameters_eq_iff`. -/
theorem build_eq_iff (name : String) (parameters : List TypeStub.Parameter) (doc : Option String)
    (kind : CallableKind) (outcome : Except Fault (Resolved Callable)) :
    build name parameters doc kind = outcome ↔
      Gives name kind (kind.realParameters parameters) (documentation doc) outcome := by
  constructor
  · rintro rfl
    exact gives_build name parameters doc kind
  · exact build_of_gives

end

end Callable

end Decl

end TypeStub
