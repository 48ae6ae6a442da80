import TypeStub.Text.Blank
import TypeStub.TypeExpr.Dotted
import TypeStub.TypeExpr.Value

/-!
Contract: the trees that the reader of type expressions can give, and what is said about a
tree at every depth.

Owns:
- induction over a tree with a hypothesis for each member of a list of subtrees;
- `TypeExpr.Within`, the subtrees of a tree, itself included;
- `TypeExpr.namespaces`, what a stub using the type has to import, and `TypeExpr.Refers`,
  the same said about subtrees;
- `TypeExpr.IsValue` and `TypeExpr.WellFormed`, the shape of what can be read.

Does not own: that whatever is read is well formed (`TypeStub.Proofs.TypeExpr.Grammar`).
-/

namespace TypeStub

namespace TypeExpr

/-! ## Subtrees -/

/-- Induction with a hypothesis for each argument and alternative. -/
@[elab_as_elim, induction_eliminator]
theorem inductionOnMembers {motive : TypeExpr → Prop}
    (name : ∀ path, motive (.name path))
    (literal : ∀ text, motive (.literal text))
    (generic : ∀ ctor arguments, (∀ argument ∈ arguments, motive argument) →
      motive (.generic ctor arguments))
    (union : ∀ alternatives, (∀ alternative ∈ alternatives, motive alternative) →
      motive (.union alternatives))
    (subscript : ∀ base arguments, motive base → (∀ argument ∈ arguments, motive argument) →
      motive (.subscript base arguments)) :
    ∀ e, motive e
  | .name path => name path
  | .literal text => literal text
  | .generic ctor arguments =>
      generic ctor arguments fun argument _ =>
        inductionOnMembers name literal generic union subscript argument
  | .union alternatives =>
      union alternatives fun alternative _ =>
        inductionOnMembers name literal generic union subscript alternative
  | .subscript base arguments =>
      subscript base arguments (inductionOnMembers name literal generic union subscript base)
        fun argument _ => inductionOnMembers name literal generic union subscript argument

/-- The first tree occurs in the second, at any depth. -/
inductive Within : TypeExpr → TypeExpr → Prop
  | whole {e : TypeExpr} : Within e e
  | argument {part argument : TypeExpr} {ctor : Generic} {arguments : List TypeExpr}
      (member : argument ∈ arguments) (inside : Within part argument) :
      Within part (.generic ctor arguments)
  | alternative {part alternative : TypeExpr} {alternatives : List TypeExpr}
      (member : alternative ∈ alternatives) (inside : Within part alternative) :
      Within part (.union alternatives)
  | base {part base : TypeExpr} {arguments : List TypeExpr} (inside : Within part base) :
      Within part (.subscript base arguments)
  | index {part argument base : TypeExpr} {arguments : List TypeExpr}
      (member : argument ∈ arguments) (inside : Within part argument) :
      Within part (.subscript base arguments)

theorem within_name {part : TypeExpr} {path : String} :
    Within part (.name path) ↔ part = .name path := by
  constructor
  · intro inside
    cases inside
    rfl
  · rintro rfl
    exact .whole

theorem within_literal {part : TypeExpr} {text : String} :
    Within part (.literal text) ↔ part = .literal text := by
  constructor
  · intro inside
    cases inside
    rfl
  · rintro rfl
    exact .whole

theorem within_generic {part : TypeExpr} {ctor : Generic} {arguments : List TypeExpr} :
    Within part (.generic ctor arguments) ↔
      part = .generic ctor arguments ∨ ∃ argument ∈ arguments, Within part argument := by
  constructor
  · intro inside
    cases inside with
    | whole => exact .inl rfl
    | argument member inside => exact .inr ⟨_, member, inside⟩
  · rintro (rfl | ⟨argument, member, inside⟩)
    · exact .whole
    · exact .argument member inside

theorem within_union {part : TypeExpr} {alternatives : List TypeExpr} :
    Within part (.union alternatives) ↔
      part = .union alternatives ∨ ∃ alternative ∈ alternatives, Within part alternative := by
  constructor
  · intro inside
    cases inside with
    | whole => exact .inl rfl
    | alternative member inside => exact .inr ⟨_, member, inside⟩
  · rintro (rfl | ⟨alternative, member, inside⟩)
    · exact .whole
    · exact .alternative member inside

theorem within_subscript {part base : TypeExpr} {arguments : List TypeExpr} :
    Within part (.subscript base arguments) ↔
      part = .subscript base arguments ∨ Within part base ∨
        ∃ argument ∈ arguments, Within part argument := by
  constructor
  · intro inside
    cases inside with
    | whole => exact .inl rfl
    | base inside => exact .inr (.inl inside)
    | index member inside => exact .inr (.inr ⟨_, member, inside⟩)
  · rintro (rfl | inside | ⟨argument, member, inside⟩)
    · exact .whole
    · exact .base inside
    · exact .index member inside

/-! ## Namespaces -/

mutual

/-- The namespaces that a stub using the type has to import. -/
def namespaces : TypeExpr → NameSet
  | .name path => Dotted.namespaceOf path.toList
  | .literal _ => ∅
  | .generic ctor arguments =>
      if ctor = .iter then (namespacesOfAll arguments).insert "typing"
      else namespacesOfAll arguments
  | .union alternatives => namespacesOfAll alternatives
  | .subscript base arguments => namespaces base ∪ namespacesOfAll arguments

/-- The namespaces that a stub using all of the types has to import. -/
def namespacesOfAll : List TypeExpr → NameSet
  | [] => ∅
  | head :: tail => namespaces head ∪ namespacesOfAll tail

end

theorem mem_namespacesOfAll {name : String} {types : List TypeExpr} :
    name ∈ namespacesOfAll types ↔ ∃ type ∈ types, name ∈ type.namespaces := by
  induction types with
  | nil => simp [namespacesOfAll]
  | cons head tail inductionHypothesis => simp [namespacesOfAll, inductionHypothesis]

/-- A dotted name of two or more segments begins with the segment `first`. -/
def DottedFrom (first : String) (path : String) : Prop :=
  ∃ second later, Dotted.segments path.toList = first.toList :: second :: later

/-- Some dotted name in the type begins with the namespace, or the namespace is `typing` and
the type has an iterator in it. -/
def Refers (e : TypeExpr) (namespaceName : String) : Prop :=
  (∃ path, Within (.name path) e ∧ DottedFrom namespaceName path) ∨
    (namespaceName = "typing" ∧ ∃ arguments, Within (.generic .iter arguments) e)

theorem mem_namespaceOf {name path : String} :
    name ∈ Dotted.namespaceOf path.toList ↔ DottedFrom name path := by
  unfold Dotted.namespaceOf DottedFrom
  match Dotted.segments path.toList with
  | [] => simp
  | [only] => simp
  | first :: second :: later =>
      constructor
      · intro member
        have equal : name = String.ofList first := by simpa using member
        exact ⟨second, later, by rw [equal, String.toList_ofList]⟩
      · rintro ⟨_, _, equal⟩
        simp [(List.cons.inj equal).1]

theorem refers_generic {ctor : Generic} {arguments : List TypeExpr} {name : String} :
    Refers (.generic ctor arguments) name ↔
      (ctor = .iter ∧ name = "typing") ∨ ∃ argument ∈ arguments, Refers argument name := by
  constructor
  · rintro (⟨path, inside, dotted⟩ | ⟨isTyping, others, inside⟩)
    · rcases within_generic.mp inside with equal | ⟨argument, member, inside⟩
      · cases equal
      · exact .inr ⟨argument, member, .inl ⟨path, inside, dotted⟩⟩
    · rcases within_generic.mp inside with equal | ⟨argument, member, inside⟩
      · cases equal
        exact .inl ⟨rfl, isTyping⟩
      · exact .inr ⟨argument, member, .inr ⟨isTyping, others, inside⟩⟩
  · rintro (⟨rfl, isTyping⟩ |
      ⟨argument, member, ⟨path, inside, dotted⟩ | ⟨isTyping, others, inside⟩⟩)
    · exact .inr ⟨isTyping, arguments, .whole⟩
    · exact .inl ⟨path, .argument member inside, dotted⟩
    · exact .inr ⟨isTyping, others, .argument member inside⟩

theorem refers_union {alternatives : List TypeExpr} {name : String} :
    Refers (.union alternatives) name ↔
      ∃ alternative ∈ alternatives, Refers alternative name := by
  constructor
  · rintro (⟨path, inside, dotted⟩ | ⟨isTyping, others, inside⟩)
    · rcases within_union.mp inside with equal | ⟨alternative, member, inside⟩
      · cases equal
      · exact ⟨alternative, member, .inl ⟨path, inside, dotted⟩⟩
    · rcases within_union.mp inside with equal | ⟨alternative, member, inside⟩
      · cases equal
      · exact ⟨alternative, member, .inr ⟨isTyping, others, inside⟩⟩
  · rintro ⟨alternative, member, ⟨path, inside, dotted⟩ | ⟨isTyping, others, inside⟩⟩
    · exact .inl ⟨path, .alternative member inside, dotted⟩
    · exact .inr ⟨isTyping, others, .alternative member inside⟩

theorem refers_subscript {base : TypeExpr} {arguments : List TypeExpr} {name : String} :
    Refers (.subscript base arguments) name ↔
      Refers base name ∨ ∃ argument ∈ arguments, Refers argument name := by
  constructor
  · rintro (⟨path, inside, dotted⟩ | ⟨isTyping, others, inside⟩)
    · rcases within_subscript.mp inside with equal | inside | ⟨argument, member, inside⟩
      · cases equal
      · exact .inl (.inl ⟨path, inside, dotted⟩)
      · exact .inr ⟨argument, member, .inl ⟨path, inside, dotted⟩⟩
    · rcases within_subscript.mp inside with equal | inside | ⟨argument, member, inside⟩
      · cases equal
      · exact .inl (.inr ⟨isTyping, others, inside⟩)
      · exact .inr ⟨argument, member, .inr ⟨isTyping, others, inside⟩⟩
  · rintro ((⟨path, inside, dotted⟩ | ⟨isTyping, others, inside⟩) |
      ⟨argument, member, ⟨path, inside, dotted⟩ | ⟨isTyping, others, inside⟩⟩)
    · exact .inl ⟨path, .base inside, dotted⟩
    · exact .inr ⟨isTyping, others, .base inside⟩
    · exact .inl ⟨path, .index member inside, dotted⟩
    · exact .inr ⟨isTyping, others, .index member inside⟩

/-- The namespaces of a type are those that its dotted names and iterators refer to. -/
theorem mem_namespaces {name : String} {e : TypeExpr} : name ∈ e.namespaces ↔ e.Refers name := by
  induction e with
  | name path => simp [namespaces, Refers, within_name, mem_namespaceOf]
  | literal text => simp [namespaces, Refers, within_literal]
  | generic ctor arguments inductionHypothesis =>
      have members : name ∈ namespacesOfAll arguments ↔
          ∃ argument ∈ arguments, Refers argument name := by
        rw [mem_namespacesOfAll]
        exact exists_congr fun argument => and_congr_right (inductionHypothesis argument)
      rw [refers_generic, namespaces]
      split
      · rename_i isIter
        rw [NameSet.mem_insert, members]
        simp [isIter]
      · rename_i notIter
        rw [members]
        simp [notIter]
  | union alternatives inductionHypothesis =>
      rw [refers_union, namespaces, mem_namespacesOfAll]
      exact exists_congr fun alternative => and_congr_right (inductionHypothesis alternative)
  | subscript base arguments baseHypothesis inductionHypothesis =>
      rw [refers_subscript, namespaces, NameSet.mem_union, mem_namespacesOfAll, baseHypothesis]
      exact or_congr_right
        (exists_congr fun argument => and_congr_right (inductionHypothesis argument))

/-! ## Well-formed types -/

/-- A dotted name: segments with at least one letter, digit or underscore each, the first of
which begins with no digit. -/
def isDottedName (path : List Char) : Bool :=
  Dotted.isComplete path && path.all Value.isIdentifierPart &&
    path.head?.any fun c => c.isAlpha || c == '_'

/-- A number: a digit, then digits and dots. -/
def isNumber : List Char → Bool
  | [] => false
  | c :: rest => c.isDigit && rest.all Value.isNumberPart

/-- A character that may stand in a value expression: white space, parentheses and bars
mean something outside of it. -/
def isInline (c : Char) : Bool :=
  !Text.isBlank c && c != '(' && c != ')' && c != '|'

/-- Inline characters between two quotes of one kind, which is not among them. -/
def IsQuoted (text : List Char) : Prop :=
  ∃ quote body, (quote = '\'' ∨ quote = '"') ∧ text = quote :: (body ++ [quote]) ∧
    ∀ c ∈ body, c ≠ quote ∧ isInline c = true

/-- The text of the ellipsis. -/
def ellipsis : List Char :=
  ['.', '.', '.']

/-- A value expression: names and literals with arguments in brackets. -/
inductive IsValue : TypeExpr → Prop
  | name {path : String} (dotted : isDottedName path.toList = true) : IsValue (.name path)
  | number {text : String} (digits : isNumber text.toList = true) : IsValue (.literal text)
  | quoted {text : String} (quoted : IsQuoted text.toList) : IsValue (.literal text)
  | ellipsis {text : String} (dots : text.toList = TypeExpr.ellipsis) : IsValue (.literal text)
  | subscript {base : TypeExpr} {arguments : List TypeExpr} (ofBase : IsValue base)
      (nonempty : arguments ≠ []) (ofArguments : ∀ argument ∈ arguments, IsValue argument) :
      IsValue (.subscript base arguments)

/-- A type that has been read: constructors have arguments, as many as they take, choices
have alternatives, and only value expressions stand in brackets. -/
inductive WellFormed : TypeExpr → Prop
  | value {e : TypeExpr} (isValue : IsValue e) : WellFormed e
  | generic {ctor : Generic} {arguments : List TypeExpr}
      (taken : ctor.takes arguments.length = true) (nonempty : arguments ≠ [])
      (ofArguments : ∀ argument ∈ arguments, WellFormed argument) :
      WellFormed (.generic ctor arguments)
  | union {alternatives : List TypeExpr} (several : 2 ≤ alternatives.length)
      (ofAlternatives : ∀ alternative ∈ alternatives, WellFormed alternative) :
      WellFormed (.union alternatives)

end TypeExpr

end TypeStub
