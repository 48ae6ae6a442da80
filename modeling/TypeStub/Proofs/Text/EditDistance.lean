import Mathlib.Order.Bounds.Basic
import TypeStub.Text.EditDistance

/-!
Contract: the two rows of numbers compute the least number of edits.

Owns:
- `Edit`, one insertion, deletion or substitution anywhere in a list, and `Edits`, a number of
  them in a row;
- `tailDistance`, the distance of two lists by the distances of their tails, which is the least
  number of edits and the same from either end;
- `IsRow`, what a finished row holds, and that each element of the source makes one of the last;
- `isLeast_editDistance`, that no way from one list to the other has fewer edits.
-/

namespace TypeStub.Text

variable {α : Type}

/-! ## Edits -/

/-- One element is inserted, deleted or replaced. -/
inductive Edit : List α → List α → Prop
  | insert (front back : List α) (item : α) : Edit (front ++ back) (front ++ item :: back)
  | delete (front back : List α) (item : α) : Edit (front ++ item :: back) (front ++ back)
  | substitute (front back : List α) (item other : α) :
      Edit (front ++ item :: back) (front ++ other :: back)

/-- So many edits, one after another, lead from the first list to the second. -/
inductive Edits : Nat → List α → List α → Prop
  | refl (items : List α) : Edits 0 items items
  | step {count : Nat} {first second third : List α} (edit : Edit first second)
      (edits : Edits count second third) : Edits (count + 1) first third

variable {first second third : List α} {count more : Nat}

theorem Edit.symm (edit : Edit first second) : Edit second first := by
  cases edit with
  | insert front back item => exact .delete front back item
  | delete front back item => exact .insert front back item
  | substitute front back item other => exact .substitute front back other item

theorem Edit.cons (head : α) (edit : Edit first second) : Edit (head :: first) (head :: second) := by
  cases edit with
  | insert front back item => exact .insert (head :: front) back item
  | delete front back item => exact .delete (head :: front) back item
  | substitute front back item other => exact .substitute (head :: front) back item other

theorem Edits.cons (head : α) (edits : Edits count first second) :
    Edits count (head :: first) (head :: second) := by
  induction edits with
  | refl => exact .refl _
  | step edit _ inductionHypothesis => exact .step (edit.cons head) inductionHypothesis

theorem Edits.trans (edits : Edits count first second) (others : Edits more second third) :
    Edits (count + more) first third := by
  induction edits with
  | refl => rwa [Nat.zero_add]
  | step edit _ inductionHypothesis =>
      rw [Nat.add_right_comm]
      exact .step edit (inductionHypothesis others)

theorem Edits.symm (edits : Edits count first second) : Edits count second first := by
  induction edits with
  | refl => exact .refl _
  | step edit _ inductionHypothesis => exact inductionHypothesis.trans (.step edit.symm (.refl _))

theorem edits_zero_iff : Edits 0 first second ↔ first = second := by
  constructor
  · rintro ⟨⟩
    rfl
  · rintro rfl
    exact .refl _

/-- Of two numbers of edits, the lesser. -/
private theorem Edits.min {other : Nat} (edits : Edits count first second)
    (others : Edits other first second) : Edits (min count other) first second := by
  rcases Nat.le_total count other with le | le
  · rwa [Nat.min_eq_left le]
  · rwa [Nat.min_eq_right le]

/-- What is edited in two lists can be edited from their ends as well. -/
theorem Edit.reverse (edit : Edit first second) : Edit first.reverse second.reverse := by
  cases edit with
  | insert front back item => simpa using Edit.insert back.reverse front.reverse item
  | delete front back item => simpa using Edit.delete back.reverse front.reverse item
  | substitute front back item other =>
      simpa using Edit.substitute back.reverse front.reverse item other

theorem Edits.reverse (edits : Edits count first second) :
    Edits count first.reverse second.reverse := by
  induction edits with
  | refl => exact .refl _
  | step edit _ inductionHypothesis => exact .step edit.reverse inductionHypothesis

/-! ## The distance by the tails -/

variable [DecidableEq α]

/-- The distance of two lists by the distances of their tails. Of two lists that begin with an
element each, the first one's is deleted, the second one's is inserted, or the one becomes the
other. -/
def tailDistance : (source target : List α) → Nat
  | [], target => target.length
  | source, [] => source.length
  | item :: source, head :: target =>
      min (min (tailDistance source (head :: target) + 1) (tailDistance (item :: source) target + 1))
        (tailDistance source target + if item = head then 0 else 1)
termination_by source target => source.length + target.length

@[simp] theorem tailDistance_nil_left (target : List α) :
    tailDistance [] target = target.length := by
  rw [tailDistance]

@[simp] theorem tailDistance_nil_right (source : List α) :
    tailDistance source [] = source.length := by
  cases source <;> simp [tailDistance]

theorem tailDistance_cons_cons (item head : α) (source target : List α) :
    tailDistance (item :: source) (head :: target) =
      min (min (tailDistance source (head :: target) + 1) (tailDistance (item :: source) target + 1))
        (tailDistance source target + if item = head then 0 else 1) := by
  rw [tailDistance]

/-! ## No way is shorter -/

private theorem tailDistance_insert_le (source target : List α) (head : α) :
    tailDistance source (head :: target) ≤ tailDistance source target + 1 := by
  cases source with
  | nil => simp
  | cons item source =>
      rw [tailDistance_cons_cons]
      omega

private theorem tailDistance_delete_le (item : α) (source target : List α) :
    tailDistance (item :: source) target ≤ tailDistance source target + 1 := by
  cases target with
  | nil => simp
  | cons head target =>
      rw [tailDistance_cons_cons]
      omega

private theorem tailDistance_substitute_le (item head : α) (source target : List α) :
    tailDistance (item :: source) (head :: target) ≤ tailDistance source target + 1 := by
  have cost : (if item = head then 0 else 1) ≤ 1 := by split <;> omega
  rw [tailDistance_cons_cons]
  omega

/-- The first list is at most one farther from anything than the second. -/
private def IsNear (first second : List α) : Prop :=
  ∀ target, tailDistance first target ≤ tailDistance second target + 1

private theorem IsNear.cons (item : α) (near : IsNear first second) :
    IsNear (item :: first) (item :: second) := by
  intro target
  induction target with
  | nil => simpa using near []
  | cons head target inductionHypothesis =>
      have deleted := near (head :: target)
      have replaced := near target
      rw [tailDistance_cons_cons, tailDistance_cons_cons]
      omega

private theorem IsNear.append (front : List α) (near : IsNear first second) :
    IsNear (front ++ first) (front ++ second) := by
  induction front with
  | nil => exact near
  | cons item front inductionHypothesis => exact inductionHypothesis.cons item

/-- An edit at the head may be undone anywhere in the target, so the induction is on the target. -/
private theorem isNear_insert (item : α) (back : List α) : IsNear back (item :: back) := by
  intro target
  induction target with
  | nil =>
      simp
      omega
  | cons head target inductionHypothesis =>
      have inserted := tailDistance_insert_le back target head
      rw [tailDistance_cons_cons]
      omega

private theorem isNear_substitute (item other : α) (back : List α) :
    IsNear (item :: back) (other :: back) := by
  intro target
  induction target with
  | nil => simp
  | cons head target inductionHypothesis =>
      have deleted := tailDistance_delete_le item back (head :: target)
      have inserted := tailDistance_insert_le (item :: back) target head
      have replaced := tailDistance_substitute_le item head back target
      rw [tailDistance_cons_cons other]
      omega

theorem Edit.tailDistance_le (edit : Edit first second) (target : List α) :
    tailDistance first target ≤ tailDistance second target + 1 := by
  cases edit with
  | insert front back item => exact (isNear_insert item back).append front target
  | delete front back item =>
      have near : IsNear (item :: back) back := tailDistance_delete_le item back
      exact near.append front target
  | substitute front back item other => exact (isNear_substitute item other back).append front target

theorem tailDistance_self (items : List α) : tailDistance items items = 0 := by
  induction items with
  | nil => simp
  | cons item items inductionHypothesis =>
      rw [tailDistance_cons_cons, inductionHypothesis]
      simp

theorem Edits.tailDistance_le (edits : Edits count first second) :
    tailDistance first second ≤ count := by
  induction edits with
  | refl items => rw [tailDistance_self]
  | step edit _ inductionHypothesis => exact (edit.tailDistance_le _).trans (by omega)

/-! ## One way is as short -/

theorem edits_tailDistance (source target : List α) :
    Edits (tailDistance source target) source target := by
  induction source generalizing target with
  | nil =>
      induction target with
      | nil => simpa using Edits.refl []
      | cons head target inductionHypothesis =>
          rw [tailDistance_nil_left] at inductionHypothesis ⊢
          exact .step (.insert [] [] head) (inductionHypothesis.cons head)
  | cons item source ofTail =>
      have deletes : ∀ target, Edits (tailDistance source target + 1) (item :: source) target :=
        fun target => .step (.delete [] source item) (ofTail target)
      induction target with
      | nil =>
          have ofNil := deletes []
          rwa [tailDistance_nil_right, ← List.length_cons, ← tailDistance_nil_right] at ofNil
      | cons head target inductionHypothesis =>
          have deleted := deletes (head :: target)
          have inserted : Edits (tailDistance (item :: source) target + 1) (item :: source)
              (head :: target) :=
            .step (.insert [] (item :: source) head) (inductionHypothesis.cons head)
          have replaced : Edits (tailDistance source target + if item = head then 0 else 1)
              (item :: source) (head :: target) := by
            split
            · rename_i same
              rw [same]
              exact (ofTail target).cons head
            · exact .step (.substitute [] source item head) ((ofTail target).cons head)
          rw [tailDistance_cons_cons]
          exact (deleted.min inserted).min replaced

theorem isLeast_tailDistance (source target : List α) :
    IsLeast {count | Edits count source target} (tailDistance source target) :=
  ⟨edits_tailDistance source target, fun _ edits => edits.tailDistance_le⟩

/-- It does not matter at which end the lists are taken apart. -/
theorem tailDistance_reverse (source target : List α) :
    tailDistance source.reverse target.reverse = tailDistance source target := by
  have there := (edits_tailDistance source target).reverse
  have back := (edits_tailDistance source.reverse target.reverse).reverse
  rw [List.reverse_reverse, List.reverse_reverse] at back
  exact Nat.le_antisymm there.tailDistance_le back.tailDistance_le

/-! ## The two rows -/

/-- The row has a cell for each beginning of the target, with its distance to the elements that
are `seen`, the latest first. -/
structure IsRow (target seen : List α) (row : Array Nat) : Prop where
  size : row.size = target.length + 1
  cell : ∀ k ≤ target.length, row.getD k 0 = tailDistance seen (target.take k).reverse

private theorem getD_setIfInBounds (row : Array Nat) {i : Nat} (inside : i < row.size)
    (value k : Nat) :
    (row.setIfInBounds i value).getD k 0 = if k = i then value else row.getD k 0 := by
  simp only [Array.getD_eq_getD_getElem?, Array.getElem?_setIfInBounds]
  by_cases same : k = i
  · subst same
    simp [inside]
  · simp [same, Ne.symm same]

/-- Besides the row before, the rest of a row is only made of its cells for the elements that are
`passed`. What stands behind these is left from an older row and is not read. -/
private theorem isRow_fillRow {item : α} {target seen passed rest : List α}
    {previous current : Array Nat} (split : passed ++ rest = target)
    (before : IsRow target seen previous) (size : current.size = target.length + 1)
    (filled : ∀ k ≤ passed.length,
      current.getD k 0 = tailDistance (item :: seen) (target.take k).reverse) :
    IsRow target (item :: seen) (fillRow item previous rest passed.length current) := by
  induction rest generalizing passed current with
  | nil =>
      rw [List.append_nil] at split
      exact ⟨size, split ▸ filled⟩
  | cons other rest inductionHypothesis =>
      have inside : passed.length + 1 ≤ target.length := by
        rw [← split]
        simp
      have takenTo : target.take passed.length = passed := by
        rw [← split, List.take_left]
      have takenPast : target.take (passed.length + 1) = passed ++ [other] := by
        rw [← split, List.take_length_add_append]
        rfl
      have above := before.cell (passed.length + 1) inside
      have corner := before.cell passed.length (by omega)
      have left := filled passed.length (Nat.le_refl _)
      rw [takenPast, List.reverse_concat] at above
      rw [takenTo] at corner left
      rw [fillRow, above, corner, left, ← tailDistance_cons_cons]
      have position : (passed ++ [other]).length = passed.length + 1 := by simp
      rw [← position] at takenPast ⊢
      refine inductionHypothesis (by simpa using split) (by rwa [Array.size_setIfInBounds])
        fun k le => ?_
      rw [getD_setIfInBounds _ (by omega)]
      split
      · rename_i isNext
        rw [isNext, takenPast, List.reverse_concat]
      · exact filled k (by omega)

theorem isRow_sweepRows {seen target source : List α} {previous current : Array Nat}
    (before : IsRow target seen previous) (size : current.size = target.length + 1) :
    IsRow target (source.reverse ++ seen)
      (sweepRows target source seen.length previous current) := by
  induction source generalizing seen previous current with
  | nil => simpa [sweepRows] using before
  | cons item source inductionHypothesis =>
      have filled : IsRow target (item :: seen)
          (fillRow item previous target 0 (current.setIfInBounds 0 (seen.length + 1))) := by
        have start : [] ++ target = target := rfl
        refine isRow_fillRow start before (by rwa [Array.size_setIfInBounds]) fun k le => ?_
        obtain rfl : k = 0 := Nat.le_zero.mp le
        rw [getD_setIfInBounds _ (by omega)]
        simp
      rw [sweepRows, List.reverse_cons, List.append_assoc]
      exact inductionHypothesis filled before.size

/-- The rows compute the distance by the tails. -/
theorem editDistance_eq_tailDistance (source target : List α) :
    editDistance source target = tailDistance source target := by
  have first : IsRow target [] (Array.range (target.length + 1)) := by
    refine ⟨Array.size_range, fun k le => ?_⟩
    simp [Array.getD_eq_getD_getElem?, Nat.lt_succ_of_le le, Nat.min_eq_left le]
  have last : IsRow target (source.reverse ++ [])
      (sweepRows target source 0 (Array.range (target.length + 1))
        (Array.replicate (target.length + 1) 0)) :=
    isRow_sweepRows first Array.size_replicate
  have cell := last.cell target.length (Nat.le_refl _)
  rw [List.take_length, List.append_nil, tailDistance_reverse] at cell
  exact cell

/-! ## The distance -/

theorem isLeast_editDistance (source target : List α) :
    IsLeast {count | Edits count source target} (editDistance source target) := by
  rw [editDistance_eq_tailDistance]
  exact isLeast_tailDistance source target

theorem edits_editDistance (source target : List α) :
    Edits (editDistance source target) source target :=
  (isLeast_editDistance source target).1

theorem Edits.editDistance_le (edits : Edits count first second) :
    editDistance first second ≤ count :=
  (isLeast_editDistance first second).2 edits

theorem editDistance_eq_zero_iff {source target : List α} :
    editDistance source target = 0 ↔ source = target := by
  constructor
  · intro same
    have edits := edits_editDistance source target
    rw [same] at edits
    exact edits_zero_iff.mp edits
  · rintro rfl
    exact Nat.le_zero.mp (Edits.refl source).editDistance_le

theorem editDistance_comm (source target : List α) :
    editDistance source target = editDistance target source :=
  Nat.le_antisymm (edits_editDistance target source).symm.editDistance_le
    (edits_editDistance source target).symm.editDistance_le

theorem editDistance_triangle (first second third : List α) :
    editDistance first third ≤ editDistance first second + editDistance second third :=
  ((edits_editDistance first second).trans (edits_editDistance second third)).editDistance_le

end TypeStub.Text
