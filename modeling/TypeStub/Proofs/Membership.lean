import TypeStub.Membership

/-!
Contract: the exact condition for each outcome that a member can have.

Owns:
- `Dump.Class.IsInherited` and `Dump.Class.Survives`, the two questions that decide about a
  member of a class;
- `Dump.Class.MadeOf`, what a member becomes by its value alone;
- one equivalence for each outcome that puts a member into a stub, at class and at module
  scope.

The rules are tried in order, so a condition also says that no earlier rule applies.
-/

namespace TypeStub

namespace Dump.Class

variable {cls : Dump.Class} {profile : Profile} {member : Dump.Member}

/-- Some base lists a member of equal name and value, or the class is an enumeration and all
enumerations have a member of that name. -/
def IsInherited (cls : Dump.Class) (profile : Profile) (member : Dump.Member) : Prop :=
  (∃ base ∈ cls.bases, ∃ other ∈ base.members,
    other.name = member.name ∧ other.value = member.value) ∨
  (cls.isEnum = true ∧ member.name ∈ profile.enumSynthetic)

/-- The member is the class's own, stands for no constructor and is not excluded by the
profile. -/
structure Survives (cls : Dump.Class) (profile : Profile) (member : Dump.Member) : Prop where
  own : ¬ cls.IsInherited profile member
  noConstructor : member.name ≠ "__init__" ∧ member.name ≠ "__new__"
  listed : member.name ∉ profile.blacklist
  notUniversal : profile.objectMember? member.name ≠ some member.value

theorem inherits_iff : cls.inherits profile member = true ↔ cls.IsInherited profile member := by
  have sameMember : ∀ other : Dump.Member,
      other = member ↔ other.name = member.name ∧ other.value = member.value := by
    intro other
    cases other
    cases member
    simp
  simp only [inherits, IsInherited, Bool.or_eq_true, Bool.and_eq_true, decide_eq_true_eq,
    List.any_eq_true, beq_iff_eq, sameMember]
  exact or_comm

theorem isConstructorName_iff {name : String} :
    isConstructorName name = true ↔ name = "__init__" ∨ name = "__new__" := by
  simp [isConstructorName]

theorem isObjectMember_iff :
    profile.isObjectMember member = true ↔
      profile.objectMember? member.name = some member.value := by
  simp [Profile.isObjectMember]

theorem survives_iff :
    cls.Survives profile member ↔
      cls.inherits profile member = false ∧ isConstructorName member.name = false ∧
        member.name ∉ profile.blacklist ∧ profile.isObjectMember member = false := by
  rw [← Bool.not_eq_true, ← Bool.not_eq_true, ← Bool.not_eq_true, inherits_iff,
    isConstructorName_iff, isObjectMember_iff, not_or]
  constructor
  · rintro ⟨own, noConstructor, listed, notUniversal⟩
    exact ⟨own, noConstructor, listed, notUniversal⟩
  · rintro ⟨own, noConstructor, listed, notUniversal⟩
    exact ⟨own, noConstructor, listed, notUniversal⟩

instance : Decidable (cls.Survives profile member) :=
  decidable_of_iff _ survives_iff.symm

/-! ## Members of classes -/

/-- What the value of a member makes of it, and whether its name is reserved. -/
inductive MadeOf (member : Dump.Member) : ClassMember → Prop
  | method {routine : Routine} (value : member.value = .routine routine)
      (free : isDunder member.name = false) : MadeOf member (.method routine)
  | magicMethod {routine : Routine} (value : member.value = .routine routine)
      (reserved : isDunder member.name = true) : MadeOf member (.magicMethod routine)
  | accessor {doc : Option String} (value : member.value = .descriptor doc)
      (free : isDunder member.name = false) : MadeOf member (.accessor doc)
  | placeholder
      (value : (∃ inner, member.value = .classObject inner) ∨
        ∃ written, member.value = .value written)
      (free : isDunder member.name = false) : MadeOf member .placeholder
  | skipped (value : ∀ routine, member.value ≠ .routine routine)
      (reserved : isDunder member.name = true) : MadeOf member (.skipped .dunderValue)

theorem madeOf_classifyValue (member : Dump.Member) : MadeOf member (classifyValue member) := by
  unfold classifyValue
  by_cases reserved : isDunder member.name = true
  · cases value : member.value with
    | routine routine => simpa [reserved] using MadeOf.magicMethod value reserved
    | _ => simpa [reserved] using MadeOf.skipped (by simp [value]) reserved
  · have free : isDunder member.name = false := Bool.not_eq_true _ ▸ reserved
    cases value : member.value with
    | routine routine => simpa [free] using MadeOf.method value free
    | descriptor doc => simpa [free] using MadeOf.accessor value free
    | classObject inner => simpa [free] using MadeOf.placeholder (.inl ⟨inner, value⟩) free
    | value written => simpa [free] using MadeOf.placeholder (.inr ⟨written, value⟩) free

theorem classifyValue_eq_iff {outcome : ClassMember} :
    classifyValue member = outcome ↔ MadeOf member outcome := by
  constructor
  · rintro rfl
    exact madeOf_classifyValue member
  · intro made
    unfold classifyValue
    cases made with
    | method value free => simp [value, free]
    | magicMethod value reserved => simp [value, reserved]
    | accessor value free => simp [value, free]
    | placeholder value free =>
        rcases value with ⟨inner, value⟩ | ⟨written, value⟩ <;> simp [value, free]
    | skipped value reserved =>
        cases found : member.value with
        | routine routine => exact absurd found (value routine)
        | _ => simp [reserved]

/-- A member is declared by its value exactly if it survives. Skipping and constructors are left
out, as earlier rules decide about them. -/
theorem classify_eq_iff {outcome : ClassMember} (declared : ∀ reason, outcome ≠ .skipped reason)
    (notConstructor : ∀ signature, outcome ≠ .constructor signature) :
    cls.classify profile member = outcome ↔
      cls.Survives profile member ∧ MadeOf member outcome := by
  rw [survives_iff, ← classifyValue_eq_iff, classify]
  by_cases inherited : cls.inherits profile member = true
  · simp [inherited, (declared .inherited).symm]
  by_cases constructs : isConstructorName member.name = true
  · cases known : cls.signature with
    | none => simp [inherited, constructs, (declared .noConstructorSignature).symm]
    | some signature => simp [inherited, constructs, (notConstructor signature).symm]
  by_cases listed : member.name ∈ profile.blacklist
  · simp [inherited, constructs, listed, (declared .blacklisted).symm]
  by_cases universal : profile.isObjectMember member = true
  · simp [inherited, constructs, listed, universal, (declared .objectMember).symm]
  · simp [inherited, constructs, listed, universal]

theorem classify_eq_method_iff {routine : Routine} :
    cls.classify profile member = .method routine ↔
      cls.Survives profile member ∧ member.value = .routine routine ∧
        isDunder member.name = false := by
  refine (classify_eq_iff (by simp) (by simp)).trans (and_congr_right fun _ => ?_)
  exact ⟨fun | .method value free => ⟨value, free⟩, fun ⟨value, free⟩ => .method value free⟩

theorem classify_eq_magicMethod_iff {routine : Routine} :
    cls.classify profile member = .magicMethod routine ↔
      cls.Survives profile member ∧ member.value = .routine routine ∧
        isDunder member.name = true := by
  refine (classify_eq_iff (by simp) (by simp)).trans (and_congr_right fun _ => ?_)
  exact ⟨fun | .magicMethod value reserved => ⟨value, reserved⟩,
      fun ⟨value, reserved⟩ => .magicMethod value reserved⟩

theorem classify_eq_accessor_iff {doc : Option String} :
    cls.classify profile member = .accessor doc ↔
      cls.Survives profile member ∧ member.value = .descriptor doc ∧
        isDunder member.name = false := by
  refine (classify_eq_iff (by simp) (by simp)).trans (and_congr_right fun _ => ?_)
  exact ⟨fun | .accessor value free => ⟨value, free⟩, fun ⟨value, free⟩ => .accessor value free⟩

theorem classify_eq_placeholder_iff :
    cls.classify profile member = .placeholder ↔
      cls.Survives profile member ∧
        ((∃ inner, member.value = .classObject inner) ∨
          ∃ written, member.value = .value written) ∧
        isDunder member.name = false := by
  refine (classify_eq_iff (by simp) (by simp)).trans (and_congr_right fun _ => ?_)
  exact ⟨fun | .placeholder value free => ⟨value, free⟩,
    fun ⟨value, free⟩ => .placeholder value free⟩

/-- Constructors are recognised before the profile is asked for excluded names. -/
theorem classify_eq_constructor_iff {signature : List Parameter} :
    cls.classify profile member = .constructor signature ↔
      ¬ cls.IsInherited profile member ∧
        (member.name = "__init__" ∨ member.name = "__new__") ∧
        cls.signature = some signature := by
  rw [← inherits_iff, ← isConstructorName_iff, classify]
  by_cases inherited : cls.inherits profile member = true
  · simp [inherited]
  by_cases constructs : isConstructorName member.name = true
  · cases known : cls.signature <;> simp [inherited, constructs]
  by_cases listed : member.name ∈ profile.blacklist
  · simp [inherited, constructs, listed]
  by_cases universal : profile.isObjectMember member = true
  · simp [inherited, constructs, listed, universal]
  · have noConstructor : ¬ MadeOf member (.constructor signature) := nofun
    simp [inherited, constructs, listed, universal, classifyValue_eq_iff, noConstructor]

end Dump.Class

/-! ## Members of modules -/

namespace Dump.Member

variable {member : Dump.Member}

theorem classifyRoot_eq_classObject_iff {cls : Dump.Class} :
    member.classifyRoot = .classObject cls ↔
      isDunder member.name = false ∧ member.value = .classObject cls := by
  unfold classifyRoot
  by_cases dunder : isDunder member.name = true
  · simp [dunder]
  · cases member.value with
    | routine routine => by_cases builtin : routine.builtin = true <;> simp [dunder, builtin]
    | descriptor doc => simp [dunder]
    | classObject other => simp [dunder]
    | value written => simp [dunder]

theorem classifyRoot_eq_function_iff {routine : Routine} :
    member.classifyRoot = .function routine ↔
      isDunder member.name = false ∧ member.value = .routine routine ∧
        routine.builtin = true := by
  unfold classifyRoot
  by_cases dunder : isDunder member.name = true
  · simp [dunder]
  · cases member.value with
    | routine other =>
        have byFlag : (if other.builtin = true then RootMember.function other else .unsupported) =
            .function routine ↔ other = routine ∧ routine.builtin = true := by
          split
          · rename_i builtin
            rw [RootMember.function.injEq]
            exact ⟨fun same => ⟨same, same ▸ builtin⟩, And.left⟩
          · rename_i notBuiltin
            refine ⟨nofun, ?_⟩
            rintro ⟨rfl, builtin⟩
            exact absurd builtin notBuiltin
        simpa [dunder] using byFlag
    | descriptor doc => simp [dunder]
    | classObject cls => simp [dunder]
    | value written => simp [dunder]

end Dump.Member

end TypeStub
