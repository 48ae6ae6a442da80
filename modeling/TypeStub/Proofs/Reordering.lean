import Mathlib.Data.List.Perm.Basic
import TypeStub.Proofs.Declaration.Assembly
import TypeStub.Stub

/-!
Contract: the order in which a dump lists members is of no account.

Owns:
- `Dump.Module.Reorders`, the dumps that differ in the order of members: those of the module,
  of the universal base type, of its classes and of the declared bases of these;
- `Dump.Module.DistinctNames`, without which the order counts, since members of one name are
  taken as they are listed;
- that all dumps of such a family have one stub, or fail in one way.
-/

namespace TypeStub

/-! ## Orders of members -/

namespace Dump

/-- The same class with its members listed in some order. -/
def Class.Relists (left right : Class) : Prop :=
  ∃ members, members.Perm left.members ∧ right = { left with members := members }

/-- The same class but for the order of its members and of those of its bases. -/
def Class.Reorders (left right : Class) : Prop :=
  ∃ bases members, List.Forall₂ Class.Relists left.bases bases ∧ members.Perm left.members ∧
    right = { left with bases := bases, members := members }

/-- The same member; a class may have its own members in another order. -/
inductive Member.Reorders : Member → Member → Prop
  | same (member : Member) : Reorders member member
  | classObject (name : String) {left right : Class} (reorders : left.Reorders right) :
      Reorders ⟨name, .classObject left⟩ ⟨name, .classObject right⟩

/-- The same module but for the order of members, at each place where members are listed. -/
structure Module.Reorders (left right : Module) : Prop where
  name : right.name = left.name
  doc : right.doc = left.doc
  members : ∃ listed, listed.Perm left.members ∧
    List.Forall₂ Member.Reorders listed right.members
  objectMembers : right.objectMembers.Perm left.objectMembers

/-- No two members of the module, of the universal base type or of one of the module's classes
have one name. -/
structure Module.DistinctNames (module : Module) : Prop where
  members : (module.members.map (·.name)).Nodup
  objectMembers : (module.objectMembers.map (·.name)).Nodup
  classes : ∀ member ∈ module.members, ∀ cls, member.value = .classObject cls →
    (cls.members.map (·.name)).Nodup

theorem Class.relists_refl (cls : Class) : cls.Relists cls := by
  refine ⟨cls.members, List.Perm.refl _, ?_⟩
  cases cls
  rfl

theorem Class.reorders_refl (cls : Class) : cls.Reorders cls := by
  refine ⟨cls.bases, cls.members, List.forall₂_same.mpr fun base _ => base.relists_refl,
    List.Perm.refl _, ?_⟩
  cases cls
  rfl

theorem Member.Reorders.name {left right : Member} (reorders : left.Reorders right) :
    right.name = left.name := by
  cases reorders <;> rfl

/-- Members with different names have one order by name. -/
theorem eq_sortedMembers {members ordered : List Member}
    (distinct : (members.map (·.name)).Nodup) (permuted : ordered.Perm members)
    (ascending : ordered.Pairwise fun left right => left.name ≤ right.name) :
    ordered = sortedMembers members := by
  have isOrdered := stablyOrdered_sortedMembers members
  refine List.Perm.eq_of_pairwise ?_ ascending isOrdered.ascending
    (permuted.trans isOrdered.permuted.symm)
  intro left right inLeft inRight below above
  exact List.inj_on_of_nodup_map distinct (permuted.mem_iff.mp inLeft)
    (isOrdered.permuted.mem_iff.mp inRight) (String.le_antisymm below above)

theorem sortedMembers_of_perm {left right : List Member}
    (distinct : (left.map (·.name)).Nodup) (permuted : right.Perm left) :
    sortedMembers right = sortedMembers left := by
  have isOrdered := stablyOrdered_sortedMembers right
  exact eq_sortedMembers distinct (isOrdered.permuted.trans permuted) isOrdered.ascending

/-- Reordered members correspond to each other when they are taken by name. -/
theorem Module.Reorders.sortedMembers {left right : Module} (reorders : left.Reorders right)
    (distinct : left.DistinctNames) :
    List.Forall₂ Member.Reorders (Dump.sortedMembers left.members)
      (Dump.sortedMembers right.members) := by
  obtain ⟨listed, permuted, sameEach⟩ := reorders.members
  have isOrdered := stablyOrdered_sortedMembers right.members
  -- What sorts the right side permutes the left side with it. Names are the same there, so they
  -- ascend, and with different names only one order does.
  obtain ⟨ordered, inOrder, ofListed⟩ := List.perm_comp_forall₂ isOrdered.permuted sameEach.flip
  have sameNames : ordered.map (·.name) = (Dump.sortedMembers right.members).map (·.name) := by
    rw [← List.forall₂_eq_eq_eq, List.forall₂_map_left_iff, List.forall₂_map_right_iff]
    exact inOrder.flip.imp fun _ _ reorders => reorders.name.symm
  have ascending : ordered.Pairwise fun left right => left.name ≤ right.name := by
    have names := List.pairwise_map.mpr isOrdered.ascending
    rw [← sameNames] at names
    exact List.pairwise_map.mp names
  rw [← eq_sortedMembers distinct.members (ofListed.trans permuted) ascending]
  exact inOrder.flip

end Dump

/-! ## Universal base types -/

/-- The profiles exclude the same members. -/
structure Profile.Agrees (left right : Profile) : Prop where
  blacklist : right.blacklist = left.blacklist
  enumSynthetic : right.enumSynthetic = left.enumSynthetic
  objectMember? : ∀ name, right.objectMember? name = left.objectMember? name

/-- Of members with different names, which one is found does not depend on their order. -/
theorem Profile.agrees_withObjectMembers (profile : Profile) {left right : List Dump.Member}
    (distinct : (left.map (·.name)).Nodup) (permuted : right.Perm left) :
    (profile.withObjectMembers left).Agrees (profile.withObjectMembers right) where
  blacklist := rfl
  enumSynthetic := rfl
  objectMember? name := by
    have alsoDistinct : (right.map (·.name)).Nodup :=
      ((permuted.map (·.name)).nodup_iff).mpr distinct
    have sameFound : (right.find? fun member => member.name = name) =
        left.find? fun member => member.name = name := by
      ext member
      rw [Outcome.find?_key_eq_some_iff alsoDistinct, Outcome.find?_key_eq_some_iff distinct,
        permuted.mem_iff]
    simp only [Profile.objectMember?, withObjectMembers, List.find?_append, sameFound]

/-! ## Classes -/

namespace Dump.Class

variable {left right : Class} {profile other : Profile}

private theorem any_of_relists {lefts rights : List Class}
    (relisted : List.Forall₂ Relists lefts rights) (member : Member) :
    (rights.any fun base => base.members.any fun listed => listed == member) =
      lefts.any fun base => base.members.any fun listed => listed == member := by
  induction relisted with
  | nil => rfl
  | @cons left right lefts rights first later inductionHypothesis =>
      obtain ⟨members, permuted, rfl⟩ := first
      rw [List.any_cons, List.any_cons, inductionHypothesis, permuted.any_eq]

theorem Reorders.classify (reorders : left.Reorders right) (agrees : profile.Agrees other)
    (member : Member) : right.classify other member = left.classify profile member := by
  obtain ⟨bases, members, relisted, -, rfl⟩ := reorders
  have sameInherits : Class.inherits { left with bases := bases, members := members } other member =
      left.inherits profile member := by
    rw [inherits, inherits, agrees.enumSynthetic, any_of_relists relisted]
  have sameObject : other.isObjectMember member = profile.isObjectMember member := by
    rw [Profile.isObjectMember, Profile.isObjectMember, agrees.objectMember?]
  rw [Class.classify, Class.classify, sameInherits, sameObject, agrees.blacklist]

end Dump.Class

namespace Decl.Class

variable {left right : Dump.Class} {profile other : Profile}

private theorem map_namedBases {β : Type} {lefts rights : List Dump.Class}
    (relisted : List.Forall₂ Dump.Class.Relists lefts rights) {f : Dump.Class → β}
    (same : ∀ cls members, f { cls with members := members } = f cls) :
    (rights.filter fun base => !base.isObject).map f =
      (lefts.filter fun base => !base.isObject).map f := by
  induction relisted with
  | nil => rfl
  | @cons left right lefts rights first later inductionHypothesis =>
      obtain ⟨members, -, rfl⟩ := first
      have sameObject : Dump.Class.isObject { left with members := members } = left.isObject := rfl
      cases universal : left.isObject with
      | true => simpa [sameObject, universal] using inductionHypothesis
      | false => simpa [sameObject, universal, same] using inductionHypothesis

/-- A class with its members in another order has the same declaration. -/
theorem assemble_of_reorders {name : String} (reorders : left.Reorders right)
    (agrees : profile.Agrees other) (distinct : (left.members.map (·.name)).Nodup) :
    assemble name right other = assemble name left profile := by
  have sameEntry : entry right other = entry left profile := by
    funext member
    rw [entry, entry, reorders.classify agrees]
    obtain ⟨bases, members, -, -, rfl⟩ := reorders
    rfl
  obtain ⟨bases, members, relisted, permuted, rfl⟩ := reorders
  have sameOrder := Dump.sortedMembers_of_perm distinct permuted
  have sameReferences := map_namedBases relisted (f := Dump.Class.reference) fun _ _ => rfl
  have sameModules := map_namedBases relisted (f := (·.module)) fun _ _ => rfl
  rw [assemble, assemble, sameEntry, sameOrder]
  simp only [ofEntries, namedBases, sameReferences, sameModules]
  rfl

end Decl.Class

/-! ## Modules -/

namespace Decl.Module

private theorem entry_of_reorders {profile other : Profile} (agrees : profile.Agrees other)
    {left right : Dump.Member} (reorders : left.Reorders right)
    (distinct : ∀ cls, left.value = .classObject cls → (cls.members.map (·.name)).Nodup) :
    entry profile left = entry other right := by
  have classes : ∀ {name : String} {cls changed : Dump.Class}, cls.Reorders changed →
      (cls.members.map (·.name)).Nodup →
      Class.assemble name cls profile = Class.assemble name changed other :=
    fun reorders distinct => (Class.assemble_of_reorders reorders agrees distinct).symm
  cases reorders with
  | same =>
      unfold entry
      cases outcome : left.classifyRoot with
      | classObject cls =>
          obtain ⟨-, isClass⟩ := Dump.Member.classifyRoot_eq_classObject_iff.mp outcome
          simp only [classes cls.reorders_refl (distinct cls isClass)]
      | function routine => rfl
      | unsupported => rfl
      | skipped => rfl
  | @classObject name left right reorders =>
      simp only [entry, Dump.Member.classifyRoot]
      cases Dump.isDunder name with
      | true => rfl
      | false => simp only [classes reorders (distinct left rfl), Bool.false_eq_true, if_false]

/-- A module with its members in another order has the same declaration. -/
theorem assemble_of_reorders {left right : Dump.Module} (reorders : left.Reorders right)
    (distinct : left.DistinctNames) (profile : Profile) :
    assemble right profile = assemble left profile := by
  have agrees : (extendedProfile left profile).Agrees (extendedProfile right profile) :=
    profile.agrees_withObjectMembers distinct.objectMembers reorders.objectMembers
  have ofMembers : (Dump.sortedMembers left.members).mapM (entry (extendedProfile left profile)) =
      (Dump.sortedMembers right.members).mapM (entry (extendedProfile right profile)) := by
    have isOrdered := Dump.stablyOrdered_sortedMembers left.members
    have steps := (List.forall₂_and_left _ _).mpr
      ⟨fun member => isOrdered.permuted.mem_iff.mp, reorders.sortedMembers distinct⟩
    refine Outcome.mapM_congr (steps.imp ?_)
    rintro member changed ⟨inMembers, sameMember⟩
    exact entry_of_reorders agrees sameMember (distinct.classes member inMembers)
  rw [assemble, assemble, ofMembers, reorders.name]

end Decl.Module

/-- The order in which a dump lists members decides neither the text of its stub, nor the
warnings, nor the fault if there is no stub. -/
theorem Stub.generate_of_reorders {left right : Dump.Module} (reorders : left.Reorders right)
    (distinct : left.DistinctNames) (profile : Profile) :
    generate right profile = generate left profile := by
  rw [generate, generate, Decl.Module.assemble_of_reorders reorders distinct]

/-- A class with a member of its base's and one of its own, in some order. -/
def fileReader (order : List Dump.Member → List Dump.Member) : Dump.Class where
  name := "Reader"
  module := "files"
  qualname := ""
  doc := none
  bases :=
    [⟨"Source", "files", "", none, [],
      order [⟨"version", .value none⟩, ⟨"close", .routine ⟨true, none, none⟩⟩], false, none⟩]
  members := order [⟨"close", .routine ⟨true, none, none⟩⟩, ⟨"__init__", .value none⟩]
  isEnum := false
  signature := some []

/-- A module with members in some order at each place. -/
def fileModule (order : List Dump.Member → List Dump.Member) : Dump.Module where
  name := "files"
  doc := none
  members := order
    [⟨"open_file", .routine ⟨true, some ":rtype: files.Reader", none⟩⟩,
      ⟨"Reader", .classObject (fileReader order)⟩]
  objectMembers := order [⟨"version", .value none⟩, ⟨"__init__", .value none⟩]

private theorem reorders_fileReader : (fileReader id).Reorders (fileReader List.reverse) :=
  ⟨_, _, .cons ⟨_, List.reverse_perm _, rfl⟩ .nil, List.reverse_perm _, rfl⟩

private theorem reorders_fileModule : (fileModule id).Reorders (fileModule List.reverse) where
  name := rfl
  doc := rfl
  members := ⟨(fileModule id).members.reverse, List.reverse_perm _,
    .cons (.classObject "Reader" reorders_fileReader) (.cons (.same _) .nil)⟩
  objectMembers := List.reverse_perm _

private theorem distinctNames_fileModule : (fileModule id).DistinctNames where
  members := by decide
  objectMembers := by decide
  classes := by
    intro member inside cls isClass
    rcases List.mem_pair.mp inside with rfl | rfl
    · cases isClass
    · cases isClass
      decide

theorem Stub.generate_of_reorders_fileModule :
    (fileModule id).Reorders (fileModule List.reverse) ∧ (fileModule id).DistinctNames ∧
      generate (fileModule List.reverse) .standard = generate (fileModule id) .standard :=
  ⟨reorders_fileModule, distinctNames_fileModule,
    generate_of_reorders reorders_fileModule distinctNames_fileModule .standard⟩

end TypeStub
