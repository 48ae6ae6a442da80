/-!
Contract: finite sets of names in ascending order.

Owns:
- `NameSet`, a strictly ascending list of names, so that two sets with the same members
  are equal and enumeration is in the order of code points;
- insertion, union and membership.
-/

namespace TypeStub

/-- A finite set of names, listed in strictly ascending order of code points. -/
structure NameSet where
  items : List String
  ascending : items.Pairwise (· < ·) := by simp
deriving DecidableEq, Repr

namespace NameSet

/-- Put a name in its place in an ascending list, which keeps its single occurrence of a
name that is already there. -/
def place (name : String) : List String → List String
  | [] => [name]
  | head :: tail =>
      if name < head then name :: head :: tail
      else if head < name then head :: place name tail
      else head :: tail

theorem mem_place {name other : String} {names : List String} :
    other ∈ place name names ↔ other = name ∨ other ∈ names := by
  induction names with
  | nil => simp [place]
  | cons head tail inductionHypothesis =>
      unfold place
      split
      · simp
      · split
        · simp only [List.mem_cons, inductionHypothesis]
          exact or_left_comm
        · rename_i notBelow notAbove
          have equal : name = head :=
            String.le_antisymm (String.not_lt.mp notAbove) (String.not_lt.mp notBelow)
          subst equal
          simp

theorem place_ascending {name : String} {names : List String}
    (ascending : names.Pairwise (· < ·)) : (place name names).Pairwise (· < ·) := by
  induction names with
  | nil => simp [place]
  | cons head tail inductionHypothesis =>
      have headBelow := (List.pairwise_cons.mp ascending).1
      have tailAscending := (List.pairwise_cons.mp ascending).2
      unfold place
      split
      · rename_i below
        refine List.pairwise_cons.mpr ⟨?_, ascending⟩
        intro other member
        rcases List.mem_cons.mp member with rfl | member
        · exact below
        · exact String.lt_trans below (headBelow other member)
      · split
        · rename_i above
          refine List.pairwise_cons.mpr ⟨?_, inductionHypothesis tailAscending⟩
          intro other member
          rcases mem_place.mp member with rfl | member
          · exact above
          · exact headBelow other member
        · exact ascending

def empty : NameSet where
  items := []

instance : EmptyCollection NameSet := ⟨empty⟩

instance : Inhabited NameSet := ⟨empty⟩

def insert (name : String) (set : NameSet) : NameSet where
  items := place name set.items
  ascending := place_ascending set.ascending

instance : Membership String NameSet := ⟨fun set name => name ∈ set.items⟩

instance (name : String) (set : NameSet) : Decidable (name ∈ set) :=
  inferInstanceAs (Decidable (name ∈ set.items))

def ofList (names : List String) : NameSet :=
  names.foldl (fun set name => set.insert name) empty

def union (left right : NameSet) : NameSet :=
  right.items.foldl (fun set name => set.insert name) left

instance : Union NameSet := ⟨union⟩

def unionAll (sets : List NameSet) : NameSet :=
  sets.foldl union empty

def size (set : NameSet) : Nat :=
  set.items.length

def isEmpty (set : NameSet) : Bool :=
  set.items.isEmpty

/-! ## Membership -/

@[simp] theorem not_mem_empty (name : String) : ¬ name ∈ (∅ : NameSet) :=
  List.not_mem_nil

@[simp] theorem mem_insert {name other : String} {set : NameSet} :
    other ∈ set.insert name ↔ other = name ∨ other ∈ set :=
  mem_place

private theorem mem_foldl_insert {other : String} (names : List String) (set : NameSet) :
    other ∈ names.foldl (fun set name => set.insert name) set ↔
      other ∈ set ∨ other ∈ names := by
  induction names generalizing set with
  | nil => simp
  | cons head tail inductionHypothesis =>
      simp only [List.foldl_cons, inductionHypothesis, mem_insert, List.mem_cons]
      rw [or_assoc, or_left_comm]

@[simp] theorem mem_ofList {other : String} {names : List String} :
    other ∈ ofList names ↔ other ∈ names := by
  unfold ofList
  rw [mem_foldl_insert]
  exact or_iff_right (not_mem_empty other)

@[simp] theorem mem_union {other : String} {left right : NameSet} :
    other ∈ left ∪ right ↔ other ∈ left ∨ other ∈ right :=
  mem_foldl_insert right.items left

private theorem mem_foldl_union {other : String} (sets : List NameSet) (set : NameSet) :
    other ∈ sets.foldl union set ↔ other ∈ set ∨ ∃ member ∈ sets, other ∈ member := by
  induction sets generalizing set with
  | nil => simp
  | cons head tail inductionHypothesis =>
      have step : other ∈ set.union head ↔ other ∈ set ∨ other ∈ head := mem_union
      simp [inductionHypothesis, step, or_assoc]

@[simp] theorem mem_unionAll {other : String} {sets : List NameSet} :
    other ∈ unionAll sets ↔ ∃ member ∈ sets, other ∈ member := by
  unfold unionAll
  rw [mem_foldl_union]
  exact or_iff_right (not_mem_empty other)

private theorem items_eq_of_mem_iff :
    ∀ {left right : List String}, left.Pairwise (· < ·) → right.Pairwise (· < ·) →
      (∀ name, name ∈ left ↔ name ∈ right) → left = right
  | [], [], _, _, _ => rfl
  | [], head :: _, _, _, same => by simpa using (same head).mpr List.mem_cons_self
  | head :: _, [], _, _, same => by simpa using (same head).mp List.mem_cons_self
  | first :: firstTail, second :: secondTail, firstAscending, secondAscending, same => by
      have firstBelow := (List.pairwise_cons.mp firstAscending).1
      have secondBelow := (List.pairwise_cons.mp secondAscending).1
      have headsEqual : first = second := by
        rcases List.mem_cons.mp ((same first).mp List.mem_cons_self) with equal | later
        · exact equal
        · rcases List.mem_cons.mp ((same second).mpr List.mem_cons_self) with equal | other
          · exact equal.symm
          · exact absurd (secondBelow first later) (String.lt_asymm (firstBelow second other))
      subst headsEqual
      have tailsSame : ∀ name, name ∈ firstTail ↔ name ∈ secondTail := by
        intro name
        constructor
        · intro member
          rcases List.mem_cons.mp ((same name).mp (List.mem_cons_of_mem _ member)) with equal | there
          · exact absurd (equal ▸ firstBelow name member) (String.lt_irrefl _)
          · exact there
        · intro member
          rcases List.mem_cons.mp ((same name).mpr (List.mem_cons_of_mem _ member)) with equal | there
          · exact absurd (equal ▸ secondBelow name member) (String.lt_irrefl _)
          · exact there
      rw [items_eq_of_mem_iff (List.pairwise_cons.mp firstAscending).2
        (List.pairwise_cons.mp secondAscending).2 tailsSame]

@[ext] theorem ext {left right : NameSet} (same : ∀ name, name ∈ left ↔ name ∈ right) :
    left = right := by
  cases left
  cases right
  congr
  exact items_eq_of_mem_iff ‹_› ‹_› same

/-! ## Unions -/

theorem union_assoc (first second third : NameSet) :
    first ∪ second ∪ third = first ∪ (second ∪ third) := by
  ext name
  simp [or_assoc]

@[simp] theorem union_empty (set : NameSet) : set ∪ ∅ = set := by
  ext name
  simp

@[simp] theorem empty_union (set : NameSet) : ∅ ∪ set = set := by
  ext name
  simp

end NameSet

end TypeStub
