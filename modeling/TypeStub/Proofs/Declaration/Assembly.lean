import TypeStub.Declaration.Assembly
import TypeStub.Proofs.Declaration.Callable
import TypeStub.Proofs.Membership

/-!
Contract: what each member brings to the declaration that is assembled from it.

Owns:
- `Dump.StablyOrdered`, the order in which members are taken;
- `Class.Brings` and `Module.Brings`, what a member brings, with one rule for each outcome;
- `Class.assemble_eq_ok_iff` and `Module.assemble_eq_ok_iff`, an assembly as a list of what
  its members bring.
-/

namespace TypeStub

/-! ## The order of members -/

namespace Dump

/-- The same members by name, those of one name in the order that they had. -/
structure StablyOrdered (members ordered : List Member) : Prop where
  permuted : ordered.Perm members
  ascending : ordered.Pairwise fun left right => left.name ≤ right.name
  stable : ∀ name, (ordered.filter fun member => member.name = name) =
    members.filter fun member => member.name = name

private theorem ascending_sortedMembers (members : List Member) :
    (sortedMembers members).Pairwise fun left right => left.name ≤ right.name := by
  have sorted : (sortedMembers members).Pairwise
      fun left right => decide (left.name ≤ right.name) = true :=
    List.pairwise_mergeSort (fun first second third => by simpa using String.le_trans)
      (fun left right => by simpa using String.le_total left.name right.name) members
  exact sorted.imp of_decide_eq_true

theorem stablyOrdered_sortedMembers (members : List Member) :
    StablyOrdered members (sortedMembers members) where
  permuted := List.mergeSort_perm members _
  ascending := ascending_sortedMembers members
  stable name := by
    have permuted := (List.mergeSort_perm members
      fun left right : Member => decide (left.name ≤ right.name)).filter
        fun member => member.name = name
    have sameName : (members.filter fun member => member.name = name).Pairwise
        fun left right => decide (left.name ≤ right.name) = true := by
      refine List.pairwise_of_forall_mem_list ?_
      intro left inLeft right inRight
      have ofLeft : left.name = name := by simpa using (List.mem_filter.mp inLeft).2
      have ofRight : right.name = name := by simpa using (List.mem_filter.mp inRight).2
      simp [ofLeft, ofRight]
    have kept := (List.sublist_mergeSort
      (fun first second third => by simpa using String.le_trans)
      (fun left right => by simpa using String.le_total left.name right.name)
      sameName List.filter_sublist).filter fun member : Member => member.name = name
    simp only [List.filter_filter, Bool.and_self] at kept
    exact (kept.eq_of_length permuted.length_eq.symm).symm

end Dump

/-! ## What several values need -/

theorem Resolved.mem_namespaces_all {α : Type} {items : List (Resolved α)} {name : String} :
    name ∈ (all items).namespaces ↔ ∃ item ∈ items, name ∈ item.namespaces := by
  simp [all]

namespace Decl

/-- What is selected from the values of the entries is selected entry by entry. -/
theorem filterMap_values {α β : Type} (select : α → Option β)
    (built : List (Option (Resolved α))) :
    (Resolved.all (built.filterMap id)).value.filterMap select =
      built.filterMap fun found => found.bind fun entry => select entry.value := by
  simp only [Resolved.all, List.filterMap_map, List.filterMap_filterMap]
  rfl

/-- What belongs to a part selected from entries belongs to one of the entries. -/
theorem mem_flatMap_of_selected {α β γ : Type} {entries : List α} {select : α → Option β}
    {ofEntry : α → List γ} {ofSelected : β → List γ}
    (same : ∀ entry found, select entry = some found → ofEntry entry = ofSelected found)
    {found : β} (selected : found ∈ entries.filterMap select) {item : γ}
    (member : item ∈ ofSelected found) : item ∈ entries.flatMap ofEntry := by
  obtain ⟨entry, inEntries, isFound⟩ := List.mem_filterMap.mp selected
  exact List.mem_flatMap.mpr ⟨entry, inEntries, same entry found isFound ▸ member⟩

/-- What all members bring has the property that each of them brings. -/
theorem forall_mem_entries {α : Type} {p : α → Prop} {members : List Dump.Member}
    {brings : Dump.Member → Option (Resolved α) → Prop} {built : List (Option (Resolved α))}
    (steps : List.Forall₂ brings members built)
    (each : ∀ member found, brings member (some found) → p found.value) :
    ∀ entry ∈ (Resolved.all (built.filterMap id)).value, p entry := by
  intro entry inEntries
  obtain ⟨found, isKept, rfl⟩ := List.mem_map.mp inEntries
  obtain ⟨member, -, ofMember⟩ := Outcome.exists_left_of_kept steps isKept
  exact each member found ofMember

/-! ## Classes -/

namespace Class

/-- What a member brings to its class. -/
inductive Brings (cls : Dump.Class) (profile : Profile) (member : Dump.Member) :
    Option (Resolved Entry) → Prop
  | constructor {signature : List TypeStub.Parameter} {built : Resolved Callable}
      (outcome : cls.classify profile member = .constructor signature)
      (accepted : Callable.build "__init__" signature cls.doc .constructor = .ok built) :
      Brings cls profile member (some (built.map .constructor))
  | method {routine : Dump.Routine} {built : Resolved Callable}
      (outcome : cls.classify profile member = .method routine)
      (accepted : buildRoutine member.name routine .method = .ok built) :
      Brings cls profile member (some (built.map .method))
  | magicMethod {routine : Dump.Routine} {built : Resolved Callable}
      (outcome : cls.classify profile member = .magicMethod routine)
      (accepted : buildRoutine member.name routine .magicMethod = .ok built) :
      Brings cls profile member (some (built.map .magicMethod))
  | accessor {doc : Option String} {built : Resolved Accessor}
      (outcome : cls.classify profile member = .accessor doc)
      (accepted : Accessor.build member.name doc = .ok built) :
      Brings cls profile member (some (built.map fun found => .attribute (.accessor found)))
  | placeholder (outcome : cls.classify profile member = .placeholder) :
      Brings cls profile member (some (.bare (.attribute (.placeholder member.name))))
  | nothing {reason : SkipReason} (outcome : cls.classify profile member = .skipped reason) :
      Brings cls profile member none

theorem entry_eq_ok_iff {cls : Dump.Class} {profile : Profile} {member : Dump.Member}
    {found : Option (Resolved Entry)} :
    entry cls profile member = .ok found ↔ Brings cls profile member found := by
  constructor
  · intro accepted
    unfold entry at accepted
    split at accepted
    · rename_i signature outcome
      obtain ⟨built, isBuilt, rfl⟩ := Outcome.map_eq_ok_iff.mp accepted
      exact .constructor outcome isBuilt
    · rename_i routine outcome
      obtain ⟨built, isBuilt, rfl⟩ := Outcome.map_eq_ok_iff.mp accepted
      exact .method outcome isBuilt
    · rename_i routine outcome
      obtain ⟨built, isBuilt, rfl⟩ := Outcome.map_eq_ok_iff.mp accepted
      exact .magicMethod outcome isBuilt
    · rename_i doc outcome
      obtain ⟨built, isBuilt, rfl⟩ := Outcome.map_eq_ok_iff.mp accepted
      exact .accessor outcome isBuilt
    · rename_i outcome
      cases accepted
      exact .placeholder outcome
    · rename_i reason outcome
      cases accepted
      exact .nothing outcome
  · intro brings
    unfold entry
    cases brings with
    | constructor outcome accepted => simp only [outcome, accepted, Except.map]
    | method outcome accepted => simp only [outcome, accepted, Except.map]
    | magicMethod outcome accepted => simp only [outcome, accepted, Except.map]
    | accessor outcome accepted => simp only [outcome, accepted, Except.map]
    | placeholder outcome => simp only [outcome]
    | nothing outcome => simp only [outcome]

/-- A class is made up of what its members bring, taken by name. -/
theorem assemble_eq_ok_iff {name : String} {cls : Dump.Class} {profile : Profile}
    {assembled : Resolved Class} :
    assemble name cls profile = .ok assembled ↔
      ∃ built, List.Forall₂ (Brings cls profile) (Dump.sortedMembers cls.members) built ∧
        ⟨ofEntries name cls (Resolved.all (built.filterMap id)).value,
          NameSet.ofList ((namedBases cls).map (·.module)) ∪
            (Resolved.all (built.filterMap id)).namespaces⟩ = assembled := by
  have steps : ∀ built, List.Forall₂ (Brings cls profile) (Dump.sortedMembers cls.members) built ↔
      (Dump.sortedMembers cls.members).mapM (entry cls profile) = .ok built := by
    intro built
    simp only [Outcome.mapM_eq_ok_iff, entry_eq_ok_iff]
  simp only [steps, assemble]
  cases (Dump.sortedMembers cls.members).mapM (entry cls profile) <;> simp

end Class

/-! ## Modules -/

namespace Module

/-- What a member brings to its module. -/
inductive Brings (profile : Profile) (member : Dump.Member) :
    Option (Resolved RootEntry) → Prop
  | classDecl {cls : Dump.Class} {built : Resolved Class}
      (outcome : member.classifyRoot = .classObject cls)
      (accepted : Class.assemble member.name cls profile = .ok built) :
      Brings profile member (some (built.map .classDecl))
  | function {routine : Dump.Routine} {built : Resolved Callable}
      (outcome : member.classifyRoot = .function routine)
      (accepted : buildRoutine member.name routine .function = .ok built) :
      Brings profile member (some (built.map .function))
  | warning (outcome : member.classifyRoot = .unsupported) :
      Brings profile member (some (.bare (.warning (.unsupportedRoot member.name))))
  | nothing (outcome : member.classifyRoot = .skipped) : Brings profile member none

theorem entry_eq_ok_iff {profile : Profile} {member : Dump.Member}
    {found : Option (Resolved RootEntry)} :
    entry profile member = .ok found ↔ Brings profile member found := by
  constructor
  · intro accepted
    unfold entry at accepted
    split at accepted
    · rename_i cls outcome
      obtain ⟨built, isBuilt, rfl⟩ := Outcome.map_eq_ok_iff.mp accepted
      exact .classDecl outcome isBuilt
    · rename_i routine outcome
      obtain ⟨built, isBuilt, rfl⟩ := Outcome.map_eq_ok_iff.mp accepted
      exact .function outcome isBuilt
    · rename_i outcome
      cases accepted
      exact .warning outcome
    · rename_i outcome
      cases accepted
      exact .nothing outcome
  · intro brings
    unfold entry
    cases brings with
    | classDecl outcome accepted => simp only [outcome, accepted, Except.map]
    | function outcome accepted => simp only [outcome, accepted, Except.map]
    | warning outcome => simp only [outcome]
    | nothing outcome => simp only [outcome]

/-- A module is made up of what its members bring, taken by name, and imports `typing`. -/
theorem assemble_eq_ok_iff {module : Dump.Module} {profile : Profile} {assembled : Assembled} :
    assemble module profile = .ok assembled ↔
      ∃ built, List.Forall₂ (Brings (extendedProfile module profile))
          (Dump.sortedMembers module.members) built ∧
        ⟨⟨module.name,
            (Resolved.all (built.filterMap id)).value.filterMap RootEntry.class?,
            (Resolved.all (built.filterMap id)).value.filterMap RootEntry.function?,
            (Resolved.all (built.filterMap id)).namespaces.insert "typing"⟩,
          (Resolved.all (built.filterMap id)).value.filterMap RootEntry.warning?⟩ =
        assembled := by
  have steps : ∀ built, List.Forall₂ (Brings (extendedProfile module profile))
      (Dump.sortedMembers module.members) built ↔
      (Dump.sortedMembers module.members).mapM (entry (extendedProfile module profile)) =
        .ok built := by
    intro built
    simp only [Outcome.mapM_eq_ok_iff, entry_eq_ok_iff]
  simp only [steps, assemble]
  cases (Dump.sortedMembers module.members).mapM (entry (extendedProfile module profile)) <;> simp

end Module

end Decl

end TypeStub
