import Mathlib
import TypeStub.Proofs.Declaration.Assembly

/-!
Contract: what more excluded names change about a stub.

Owns:
- `Class.without`, a class with all that it declares under some names left out;
- that a profile with more excluded names gives just that, for every class of a module.

Constructors are recognised before names are looked up, so excluding their names has no effect.
A member that is left out is not built any more: a module that was assembled still is, and
imports that only such a member needed are gone.
-/

namespace TypeStub

namespace Dump.Class

variable {cls : Dump.Class} {profile : Profile} {member : Dump.Member} {names : List String}

theorem classify_of_kept (kept : member.name ∉ names) :
    cls.classify (profile.withBlacklist names) member = cls.classify profile member := by
  have sameListed : member.name ∈ (profile.withBlacklist names).blacklist ↔
      member.name ∈ profile.blacklist := by
    simp [Profile.withBlacklist, kept]
  unfold classify
  simp only [sameListed]
  rfl

theorem exists_skipped_of_excluded (excluded : member.name ∈ names)
    (noConstructor : ∀ signature, cls.classify profile member ≠ .constructor signature) :
    ∃ reason, cls.classify (profile.withBlacklist names) member = .skipped reason := by
  have sameInherits : cls.inherits (profile.withBlacklist names) member =
      cls.inherits profile member := rfl
  have listed : member.name ∈ (profile.withBlacklist names).blacklist := by
    simp [Profile.withBlacklist, excluded]
  unfold classify at noConstructor ⊢
  rw [sameInherits]
  by_cases inherited : cls.inherits profile member = true
  · exact ⟨.inherited, by rw [if_pos inherited]⟩
  rw [if_neg inherited] at noConstructor ⊢
  by_cases constructs : isConstructorName member.name = true
  · rw [if_pos constructs] at noConstructor ⊢
    cases known : cls.signature with
    | none => exact ⟨.noConstructorSignature, rfl⟩
    | some signature =>
        rw [known] at noConstructor
        exact absurd rfl (noConstructor signature)
  · exact ⟨.blacklisted, by rw [if_neg constructs, if_pos listed]⟩

end Dump.Class

namespace Decl

/-! ## Classes -/

namespace Entry

/-- The entry stays where the names are excluded. -/
def isKept (names : List String) : Entry → Bool
  | .constructor _ => true
  | .method callable => callable.name ∉ names
  | .magicMethod callable => callable.name ∉ names
  | .attribute declared => declared.name ∉ names

end Entry

namespace Class

variable {cls : Dump.Class} {profile : Profile} {member : Dump.Member}

/-- The class without the attributes and methods of the names. -/
def without (names : List String) (declared : Class) : Class :=
  { declared with
    attributes := declared.attributes.filter fun found => found.name ∉ names
    methods := declared.methods.filter fun found => found.name ∉ names
    magicMethods := declared.magicMethods.filter fun found => found.name ∉ names }

/-- What a member brings bears the name of the member, unless it is the constructor. -/
theorem Brings.isKept_eq {found : Resolved Entry} (brings : Brings cls profile member (some found))
    (noConstructor : ∀ signature, cls.classify profile member ≠ .constructor signature)
    (names : List String) : found.value.isKept names = decide (member.name ∉ names) := by
  generalize isFound : some found = brought at brings
  cases brings with
  | constructor outcome accepted => exact absurd outcome (noConstructor _)
  | method outcome accepted =>
      have named := (Callable.exists_types_of_build accepted).2.1
      cases isFound
      rw [← named]
      rfl
  | magicMethod outcome accepted =>
      have named := (Callable.exists_types_of_build accepted).2.1
      cases isFound
      rw [← named]
      rfl
  | accessor outcome accepted =>
      have named := Accessor.name_of_build accepted
      cases isFound
      rw [← named]
      rfl
  | placeholder outcome =>
      cases isFound
      rfl
  | nothing outcome => cases isFound

/-- Under more excluded names a member brings what it brought, if that is kept, and else
nothing. -/
theorem Brings.withBlacklist {found : Option (Resolved Entry)}
    (brings : Brings cls profile member found) (names : List String) :
    Brings cls (profile.withBlacklist names) member
      (found.filter fun entry => entry.value.isKept names) := by
  -- A constructor is kept under any name; the documentation of an excluded member is not read,
  -- so that no fault can come of it.
  by_cases constructs : ∃ signature, cls.classify profile member = .constructor signature
  · obtain ⟨signature, outcome⟩ := constructs
    have still : cls.classify (profile.withBlacklist names) member = .constructor signature := by
      rw [Dump.Class.classify_eq_constructor_iff] at outcome ⊢
      exact outcome
    rw [← entry_eq_ok_iff, entry, outcome] at brings
    obtain ⟨built, accepted, rfl⟩ := Outcome.map_eq_ok_iff.mp brings
    exact .constructor still accepted
  have noConstructor := not_exists.mp constructs
  by_cases excluded : member.name ∈ names
  · obtain ⟨reason, outcome⟩ := Dump.Class.exists_skipped_of_excluded excluded noConstructor
    have dropped : (found.filter fun entry => entry.value.isKept names) = none := by
      cases found with
      | none => rfl
      | some entry => simp [Option.filter, brings.isKept_eq noConstructor, excluded]
    rw [dropped]
    exact .nothing outcome
  · have kept : (found.filter fun entry => entry.value.isKept names) = found := by
      cases found with
      | none => rfl
      | some entry => simp [Option.filter, brings.isKept_eq noConstructor, excluded]
    rw [kept, ← entry_eq_ok_iff, entry, Dump.Class.classify_of_kept excluded]
    exact entry_eq_ok_iff.mpr brings

private theorem filterMap_kept {α : Type} {select : Entry → Option α} {stays : α → Bool}
    {names : List String}
    (same : ∀ entry, (if entry.isKept names then select entry else none) =
      (select entry).filter stays) (entries : List (Resolved Entry)) :
    (Resolved.all (entries.filter fun entry => entry.value.isKept names)).value.filterMap select =
      ((Resolved.all entries).value.filterMap select).filter stays := by
  simp only [Resolved.all, List.filterMap_map, List.filterMap_filter, List.filter_filterMap]
  exact List.filterMap_congr fun entry _ => same entry.value

private theorem ofEntries_kept (name : String) (names : List String)
    (entries : List (Resolved Entry)) :
    ofEntries name cls
        (Resolved.all (entries.filter fun entry => entry.value.isKept names)).value =
      (ofEntries name cls (Resolved.all entries).value).without names := by
  have constructors := @filterMap_kept _ Entry.constructor? (fun _ => true) names
    (fun entry => by cases entry <;> simp [Entry.isKept, Entry.constructor?, Option.filter]) entries
  have attributes := @filterMap_kept _ Entry.attribute? (fun found => found.name ∉ names) names
    (fun entry => by cases entry <;> simp [Entry.isKept, Entry.attribute?, Option.filter]) entries
  have methods := @filterMap_kept _ Entry.method? (fun found => found.name ∉ names) names
    (fun entry => by cases entry <;> simp [Entry.isKept, Entry.method?, Option.filter]) entries
  have magicMethods := @filterMap_kept _ Entry.magicMethod? (fun found => found.name ∉ names) names
    (fun entry => by cases entry <;> simp [Entry.isKept, Entry.magicMethod?, Option.filter]) entries
  rw [List.filter_true] at constructors
  simp only [ofEntries, without, constructors, attributes, methods, magicMethods]

/-- A class that is assembled still is when more names are excluded, without what it declares
under them, and imports nothing more. -/
theorem assemble_withBlacklist {name : String} {assembled : Resolved Class}
    (accepted : assemble name cls profile = .ok assembled) (names : List String) :
    ∃ reduced, assemble name cls (profile.withBlacklist names) = .ok reduced ∧
      reduced.value = assembled.value.without names ∧
      ∀ other ∈ reduced.namespaces, other ∈ assembled.namespaces := by
  obtain ⟨built, steps, rfl⟩ := assemble_eq_ok_iff.mp accepted
  have reducedSteps : List.Forall₂ (Brings cls (profile.withBlacklist names))
      (Dump.sortedMembers cls.members)
      (built.map (Option.filter fun entry => entry.value.isKept names)) := by
    rw [List.forall₂_map_right_iff]
    exact steps.imp fun _ _ brings => brings.withBlacklist names
  have entries : (built.map (Option.filter fun entry => entry.value.isKept names)).filterMap id =
      (built.filterMap id).filter fun entry => entry.value.isKept names := by
    rw [List.filterMap_map, List.filter_filterMap]
    rfl
  refine ⟨_, assemble_eq_ok_iff.mpr ⟨_, reducedSteps, rfl⟩, ?_, ?_⟩
  · simp only [entries, ofEntries_kept]
  · intro other member
    simp only [entries, NameSet.mem_union, Resolved.mem_namespaces_all, List.mem_filter] at member ⊢
    rcases member with ofBase | ⟨entry, ⟨inEntries, -⟩, needed⟩
    · exact .inl ofBase
    · exact .inr ⟨entry, inEntries, needed⟩

end Class

/-! ## Modules -/

namespace RootEntry

/-- The entry with the names left out of a class. -/
def without (names : List String) : RootEntry → RootEntry
  | .classDecl cls => .classDecl (cls.without names)
  | entry => entry

end RootEntry

namespace Module

variable {profile : Profile} {member : Dump.Member}

/-- The right entry is the left one with the names left out, and needs no more imports. -/
structure Reduces (names : List String) (left right : Resolved RootEntry) : Prop where
  value : right.value = left.value.without names
  namespaces : ∀ name ∈ right.namespaces, name ∈ left.namespaces

theorem Brings.withBlacklist {found : Option (Resolved RootEntry)}
    (brings : Brings profile member found) (names : List String) :
    ∃ reduced, Brings (profile.withBlacklist names) member reduced ∧
      Option.Rel (Reduces names) found reduced := by
  cases brings with
  | classDecl outcome accepted =>
      obtain ⟨reduced, stillAccepted, value, namespaces⟩ :=
        Class.assemble_withBlacklist accepted names
      exact ⟨_, .classDecl outcome stillAccepted, .some ⟨congrArg RootEntry.classDecl value,
        namespaces⟩⟩
  | function outcome accepted => exact ⟨_, .function outcome accepted, .some ⟨rfl, fun _ => id⟩⟩
  | warning outcome => exact ⟨_, .warning outcome, .some ⟨rfl, fun _ => id⟩⟩
  | nothing outcome => exact ⟨none, .nothing outcome, .none⟩

private theorem exists_reduced_steps {members : List Dump.Member}
    {built : List (Option (Resolved RootEntry))}
    (steps : List.Forall₂ (Brings profile) members built) (names : List String) :
    ∃ others, List.Forall₂ (Brings (profile.withBlacklist names)) members others ∧
      List.Forall₂ (Reduces names) (built.filterMap id) (others.filterMap id) := by
  induction steps with
  | nil => exact ⟨[], .nil, .nil⟩
  | @cons member found members built brings later inductionHypothesis =>
      obtain ⟨reduced, stillBrings, reduces⟩ := brings.withBlacklist names
      obtain ⟨others, ofLater, ofEntries⟩ := inductionHypothesis
      refine ⟨reduced :: others, .cons stillBrings ofLater, ?_⟩
      cases reduces with
      | none => exact ofEntries
      | some sameEntry => exact .cons sameEntry ofEntries

private theorem values_of_reduces {names : List String} {lefts rights : List (Resolved RootEntry)}
    (reduces : List.Forall₂ (Reduces names) lefts rights) :
    (Resolved.all rights).value = (Resolved.all lefts).value.map (RootEntry.without names) := by
  induction reduces with
  | nil => rfl
  | @cons left right lefts rights first later inductionHypothesis =>
      simp only [Resolved.all, List.map_cons] at inductionHypothesis ⊢
      rw [first.value, inductionHypothesis]

/-- A module that is assembled still is when more names are excluded. Its classes lose what
they declare under these names, and imports can go with it; nothing else changes. -/
theorem assemble_excluding {dump : Dump.Module} {assembled : Assembled}
    (accepted : assemble dump profile = .ok assembled) (names : List String) :
    ∃ reduced, assemble dump (profile.withBlacklist names) = .ok reduced ∧
      reduced.module.name = assembled.module.name ∧
      reduced.module.classes = assembled.module.classes.map (Class.without names) ∧
      reduced.module.functions = assembled.module.functions ∧
      reduced.warnings = assembled.warnings ∧
      ∀ name ∈ reduced.module.namespaces, name ∈ assembled.module.namespaces := by
  obtain ⟨built, steps, rfl⟩ := assemble_eq_ok_iff.mp accepted
  obtain ⟨others, reducedSteps, reduces⟩ := exists_reduced_steps steps names
  have values := values_of_reduces reduces
  have classes : RootEntry.class? ∘ RootEntry.without names =
      fun entry => (RootEntry.class? entry).map (Class.without names) := by
    funext entry
    cases entry <;> rfl
  have functions : RootEntry.function? ∘ RootEntry.without names = RootEntry.function? := by
    funext entry
    cases entry <;> rfl
  have warnings : RootEntry.warning? ∘ RootEntry.without names = RootEntry.warning? := by
    funext entry
    cases entry <;> rfl
  refine ⟨_, assemble_eq_ok_iff.mpr ⟨others, reducedSteps, rfl⟩, rfl, ?_, ?_, ?_, ?_⟩
  · simp only [values, List.filterMap_map, classes, List.map_filterMap]
  · simp only [values, List.filterMap_map, functions]
  · simp only [values, List.filterMap_map, warnings]
  · intro name member
    rw [NameSet.mem_insert, Resolved.mem_namespaces_all] at member ⊢
    rcases member with isTyping | ⟨right, inRight, needed⟩
    · exact .inl isTyping
    · obtain ⟨left, inLeft, related⟩ := Outcome.exists_left_of_mem reduces inRight
      exact .inr ⟨left, inLeft, related.namespaces name needed⟩

/-- A module with a class whose constructor and method bear names that could be excluded. -/
def lamps : Dump.Module where
  name := "lamps"
  doc := none
  members :=
    [⟨"Lamp", .classObject
        ⟨"Lamp", "lamps", "", none, [],
          [⟨"__init__", .value none⟩, ⟨"dim", .routine ⟨true, some ":rtype: power.Level", none⟩⟩,
            ⟨"lit", .descriptor (some ":rtype: bool")⟩], false, some []⟩⟩,
      ⟨"dim", .routine ⟨true, none, none⟩⟩]
  objectMembers := []

/-- Whether classes have constructors, the names that they and the module declare, and what
the module imports. -/
def sketch (assembled : Assembled) :
    List (Bool × List String) × List String × List String :=
  (assembled.module.classes.map fun cls =>
      (cls.constructor.isSome, cls.methods.map (·.name) ++ cls.attributes.map (·.name)),
    assembled.module.functions.map (·.name), assembled.module.namespaces.items)

theorem assemble_excluding_lamps :
    ∃ assembled, assemble lamps .standard = .ok assembled ∧
      sketch assembled = ([(true, ["dim", "lit"])], ["dim"], ["power", "typing"]) ∧
      ∃ reduced, assemble lamps (Profile.standard.withBlacklist ["__init__", "dim"]) =
          .ok reduced ∧
        sketch reduced = ([(true, ["lit"])], ["dim"], ["typing"]) ∧
        reduced.module.classes =
          assembled.module.classes.map (Class.without ["__init__", "dim"]) ∧
        reduced.module.functions = assembled.module.functions ∧
        reduced.warnings = assembled.warnings ∧
        ∀ name ∈ reduced.module.namespaces, name ∈ assembled.module.namespaces := by
  have isSketch : (assemble lamps .standard).map sketch =
      .ok ([(true, ["dim", "lit"])], ["dim"], ["power", "typing"]) := by cbv
  have isReduced : (assemble lamps (Profile.standard.withBlacklist ["__init__", "dim"])).map
      sketch = .ok ([(true, ["lit"])], ["dim"], ["typing"]) := by cbv
  obtain ⟨assembled, accepted, declares⟩ := Outcome.map_eq_ok_iff.mp isSketch
  obtain ⟨reduced, stillAccepted, -, same⟩ := assemble_excluding accepted ["__init__", "dim"]
  rw [stillAccepted] at isReduced
  exact ⟨assembled, accepted, declares, reduced, stillAccepted, Except.ok.inj isReduced, same⟩

end Module

end Decl

end TypeStub
