import Mathlib.Data.List.Induction
import TypeStub.Proofs.Text.Intercalate

/-!
Contract: texts that are read from their end.

Owns:
- `Ends`, what the item before a text may not be;
- `ReadsBack`, that the end of a text decides which item was written last and where it began;
- the same for items with a separator between neighbours.

Reading from the end suits texts in which what is applied to arguments stands before them: the
arguments are read first, and what remains is shorter.
-/

namespace TypeStub.Backward

variable {α β : Type}

/-- No item that `p` holds of is the last one. -/
def Ends (p : α → Bool) (front : List α) : Prop :=
  ∀ item ∈ front.getLast?, p item = false

theorem ends_nil (p : α → Bool) : Ends p [] := by
  simp [Ends]

theorem ends_append_singleton {p : α → Bool} {item : α} (front : List α) :
    Ends p (front ++ [item]) ↔ p item = false := by
  simp [Ends]

private theorem eq_of_longer {p : α → Bool} {front rear left right : List α}
    (ofLeft : ∀ item ∈ left, p item = true) (ends : Ends p rear) {more : List α}
    (isRear : rear = front ++ more) (isLeft : left = more ++ right) : front = rear := by
  rcases List.eq_nil_or_concat more with rfl | ⟨others, last, rfl⟩
  · simpa using isRear.symm
  · rw [List.concat_eq_append] at isRear isLeft
    have inLeft : last ∈ left := by simp [isLeft]
    rw [isRear, ← List.append_assoc, ends_append_singleton] at ends
    rw [ofLeft last inLeft] at ends
    cases ends

/-- A run of items of one kind begins where the kind changes. -/
theorem run_unique {p : α → Bool} {front rear left right : List α}
    (ofLeft : ∀ item ∈ left, p item = true) (ofRight : ∀ item ∈ right, p item = true)
    (frontEnds : Ends p front) (rearEnds : Ends p rear) (same : front ++ left = rear ++ right) :
    front = rear ∧ left = right := by
  have sameFront : front = rear := by
    rcases List.append_eq_append_iff.mp same with ⟨more, isRear, isLeft⟩ | ⟨more, isFront, isRight⟩
    · exact eq_of_longer ofLeft rearEnds isRear isLeft
    · exact (eq_of_longer ofRight frontEnds isFront isRight).symm
  subst sameFront
  exact ⟨rfl, List.append_cancel_left same⟩

/-- Where `Before` holds of all that stands before the last text, and that text is of an item of
`Among`, only one item and only one beginning are possible. -/
def ReadsBack (text : β → List α) (Before : List α → Prop) (Among : β → Prop) (item : β) : Prop :=
  ∀ other, Among other → ∀ front rear, Before front → Before rear →
    front ++ text item = rear ++ text other → front = rear ∧ item = other

section Joined

variable {text : β → List α} {Start Before : List α → Prop} {Among : β → Prop}
  {separator : List α}

/-- What stands before the last of several items. -/
private def ahead (text : β → List α) (separator front : List α) (earlier : List β) : List α :=
  if earlier = [] then front
  else front ++ separator.intercalate (earlier.map text) ++ separator

private theorem joined_concat (front : List α) (earlier : List β) (last : β) :
    front ++ separator.intercalate ((earlier ++ [last]).map text) =
      ahead text separator front earlier ++ text last := by
  rw [List.map_append, List.map_singleton, ahead]
  split
  · rename_i alone
    simp [alone]
  · rename_i several
    have nonempty : earlier.map text ≠ [] := by simpa using several
    rw [Intercalate.append_singleton separator nonempty]
    simp

private theorem before_ahead (start : ∀ front, Start front → Before front)
    (between : ∀ front, Before (front ++ separator)) {front : List α} (starts : Start front)
    (earlier : List β) : Before (ahead text separator front earlier) := by
  unfold ahead
  split
  · exact start front starts
  · exact between _

/-- Items with a separator between neighbours are read back one after another, if what they
start behind cannot end with the separator. -/
theorem joined_unique (start : ∀ front, Start front → Before front)
    (between : ∀ front, Before (front ++ separator))
    (apart : ∀ front, ¬ Start (front ++ separator)) {lefts rights : List β}
    (readsBack : ∀ left ∈ lefts, ReadsBack text Before Among left)
    (among : ∀ right ∈ rights, Among right) (leftNonempty : lefts ≠ [])
    (rightNonempty : rights ≠ []) {front rear : List α} (frontStarts : Start front)
    (rearStarts : Start rear)
    (same : front ++ separator.intercalate (lefts.map text) =
      rear ++ separator.intercalate (rights.map text)) :
    front = rear ∧ lefts = rights := by
  -- Of both lists the last item is taken off. Before it stands a separator exactly if there are
  -- more items, so the lists end together.
  induction lefts using List.reverseRecOn generalizing rights with
  | nil => exact absurd rfl leftNonempty
  | append_singleton earlier last inductionHypothesis =>
      rcases List.eq_nil_or_concat rights with rfl | ⟨others, final, rfl⟩
      · exact absurd rfl rightNonempty
      rw [List.concat_eq_append] at among same ⊢
      rw [joined_concat, joined_concat] at same
      obtain ⟨sameAhead, rfl⟩ := readsBack last (by simp) final (among final (by simp)) _ _
        (before_ahead start between frontStarts earlier)
        (before_ahead start between rearStarts others) same
      unfold ahead at sameAhead
      split at sameAhead
      · rename_i leftAlone
        split at sameAhead
        · rename_i rightAlone
          exact ⟨sameAhead, by rw [leftAlone, rightAlone]⟩
        · rw [sameAhead] at frontStarts
          exact absurd frontStarts (apart _)
      · rename_i leftSeveral
        split at sameAhead
        · rw [← sameAhead] at rearStarts
          exact absurd rearStarts (apart _)
        · rename_i rightSeveral
          obtain ⟨sameFront, sameEarlier⟩ := inductionHypothesis
            (fun left member => readsBack left (List.mem_append_left _ member))
            (fun right member => among right (List.mem_append_left _ member))
            leftSeveral rightSeveral (List.append_cancel_right sameAhead)
          exact ⟨sameFront, by rw [sameEarlier]⟩

end Joined

end TypeStub.Backward
