import Mathlib.Algebra.GroupWithZero.Nat

/-!
Contract: the members of lists written one after another with a separator between
neighbours.

Owns:
- which items stand in such a list, and what all of them have in common;
- division at a separator as the inverse of writing it.
-/

namespace TypeStub.Intercalate

variable {α : Type}

/-- An item between neighbours is of the separator or of a part. -/
theorem mem_or_mem {separator : List α} {parts : List (List α)} {item : α}
    (member : item ∈ separator.intercalate parts) :
    item ∈ separator ∨ ∃ part ∈ parts, item ∈ part := by
  induction parts with
  | nil => exact absurd member (by simp)
  | cons head tail inductionHypothesis =>
      cases tail with
      | nil => exact .inr ⟨head, List.mem_cons_self, by simpa using member⟩
      | cons second others =>
          rw [List.intercalate_cons_cons, List.append_assoc, List.mem_append,
            List.mem_append] at member
          rcases member with inHead | inSeparator | inTail
          · exact .inr ⟨head, List.mem_cons_self, inHead⟩
          · exact .inl inSeparator
          · rcases inductionHypothesis inTail with inSeparator | ⟨part, inParts, inside⟩
            · exact .inl inSeparator
            · exact .inr ⟨part, List.mem_cons_of_mem head inParts, inside⟩

/-- Every part is written. -/
theorem mem_of_mem_part {separator : List α} {parts : List (List α)} {part : List α} {item : α}
    (inParts : part ∈ parts) (inside : item ∈ part) : item ∈ separator.intercalate parts := by
  induction parts with
  | nil => cases inParts
  | cons head tail inductionHypothesis =>
      cases tail with
      | nil =>
          rw [List.mem_singleton] at inParts
          subst inParts
          simpa using inside
      | cons second others =>
          rw [List.intercalate_cons_cons, List.append_assoc, List.mem_append, List.mem_append]
          rcases List.mem_cons.mp inParts with rfl | later
          · exact .inl inside
          · exact .inr (.inr (inductionHypothesis later))

theorem isInfix_of_mem_part {separator : List α} {parts : List (List α)} {part : List α}
    (inParts : part ∈ parts) : part <:+: separator.intercalate parts := by
  induction parts with
  | nil => cases inParts
  | cons head tail inductionHypothesis =>
      cases tail with
      | nil =>
          simp [List.mem_singleton.mp inParts]
      | cons second others =>
          rw [List.intercalate_cons_cons, List.append_assoc]
          rcases List.mem_cons.mp inParts with rfl | later
          · exact (List.prefix_append _ _).isInfix
          · exact (inductionHypothesis later).trans
              ((List.suffix_append _ _).trans (List.suffix_append _ _)).isInfix

/-- The separator is written if there are two parts. -/
theorem separator_mem {separator : α} {parts : List (List α)} (several : 2 ≤ parts.length) :
    separator ∈ [separator].intercalate parts := by
  cases parts with
  | nil => simp at several
  | cons head tail =>
      have later : tail ≠ [] := by
        rintro rfl
        simp at several
      rw [List.intercalate_cons_of_ne_nil later]
      simp

/-- What holds of the separator and of all parts holds of all that is written. -/
theorem forall_mem (p : α → Prop) {separator : List α} {parts : List (List α)}
    (ofSeparator : ∀ item ∈ separator, p item)
    (ofParts : ∀ part ∈ parts, ∀ item ∈ part, p item) :
    ∀ item ∈ separator.intercalate parts, p item := by
  intro item member
  rcases mem_or_mem member with inSeparator | ⟨part, inParts, inside⟩
  · exact ofSeparator item inSeparator
  · exact ofParts part inParts item inside

/-- An item other than the separator stands in a part, behind a separator or with nothing
else before the part. -/
theorem exists_part_of_append_cons {separator item : α} (other : item ≠ separator)
    {parts : List (List α)} {front back : List α}
    (written : [separator].intercalate parts = front ++ item :: back) :
    ∃ part ∈ parts, ∃ left right, part = left ++ item :: right ∧
      (front = left ∨ ∃ before, front = before ++ separator :: left) := by
  induction parts generalizing front with
  | nil => simp at written
  | cons head tail inductionHypothesis =>
      cases tail with
      | nil =>
          rw [List.intercalate_singleton] at written
          exact ⟨head, List.mem_cons_self, front, back, written, .inl rfl⟩
      | cons second others =>
          rw [List.intercalate_cons_cons, List.append_assoc, List.singleton_append,
            List.append_eq_append_iff] at written
          rcases written with ⟨passed, isFront, isLater⟩ | ⟨inside, isHead, isBack⟩
          · cases passed with
            | nil => exact absurd (List.cons.inj isLater).1.symm other
            | cons first rest =>
                obtain ⟨rfl, isRest⟩ := List.cons.inj isLater
                obtain ⟨part, member, left, right, isPart, before⟩ := inductionHypothesis isRest
                refine ⟨part, List.mem_cons_of_mem head member, left, right, isPart, .inr ?_⟩
                rcases before with rfl | ⟨before, rfl⟩
                · exact ⟨head, isFront⟩
                · exact ⟨head ++ separator :: before, by simp [isFront]⟩
          · cases inside with
            | nil => exact absurd (List.cons.inj isBack).1 other
            | cons first rest =>
                obtain ⟨rfl, -⟩ := List.cons.inj isBack
                exact ⟨head, List.mem_cons_self, front, rest, isHead, .inl rfl⟩

theorem append (separator : List α) {front back : List (List α)} (frontNonempty : front ≠ [])
    (backNonempty : back ≠ []) :
    separator.intercalate (front ++ back) =
      separator.intercalate front ++ (separator ++ separator.intercalate back) := by
  induction front with
  | nil => exact absurd rfl frontNonempty
  | cons head tail inductionHypothesis =>
      by_cases alone : tail = []
      · simp [alone, List.intercalate_cons_of_ne_nil backNonempty]
      · rw [List.cons_append, List.intercalate_cons_of_ne_nil (by simp [alone]),
          inductionHypothesis alone, List.intercalate_cons_of_ne_nil alone]
        simp

theorem append_singleton (separator : List α) {front : List (List α)} (nonempty : front ≠ [])
    (last : List α) :
    separator.intercalate (front ++ [last]) =
      separator.intercalate front ++ (separator ++ last) := by
  rw [append separator nonempty (List.cons_ne_nil last []), List.intercalate_singleton]

/-- What is written ends with the last part, behind a separator if there is another part. -/
theorem exists_last {separator : α} {parts : List (List α)} (nonempty : parts ≠ []) :
    ∃ last ∈ parts, [separator].intercalate parts = last ∨
      ∃ before, [separator].intercalate parts = before ++ separator :: last := by
  rcases List.eq_nil_or_concat parts with empty | ⟨front, last, rfl⟩
  · exact absurd empty nonempty
  · rw [List.concat_eq_append]
    refine ⟨last, by simp, ?_⟩
    by_cases alone : front = []
    · exact .inl (by simp [alone])
    · exact .inr ⟨[separator].intercalate front, append_singleton [separator] alone last⟩

/-- Groups of parts may be written one by one if none of them is empty. -/
theorem intercalate_flatten {separator : List α} {groups : List (List (List α))}
    (nonempty : ∀ group ∈ groups, group ≠ []) :
    separator.intercalate groups.flatten =
      separator.intercalate (groups.map separator.intercalate) := by
  induction groups with
  | nil => rfl
  | cons group others inductionHypothesis =>
      obtain ⟨ofGroup, ofOthers⟩ := List.forall_mem_cons.mp nonempty
      by_cases alone : others = []
      · simp [alone]
      · have backNonempty : others.flatten ≠ [] := by
          obtain ⟨other, rest, rfl⟩ := List.exists_cons_of_ne_nil alone
          simp [ofOthers other List.mem_cons_self]
        rw [List.flatten_cons, append separator ofGroup backNonempty,
          inductionHypothesis ofOthers, List.map_cons,
          List.intercalate_cons_of_ne_nil (by simpa using alone), List.append_assoc]

theorem count_intercalate [BEq α] [LawfulBEq α] (item separator : α) (parts : List (List α)) :
    ([separator].intercalate parts).count item =
      (parts.map (List.count item)).sum + (parts.length - 1) * [separator].count item := by
  induction parts with
  | nil => simp
  | cons head tail inductionHypothesis =>
      cases tail with
      | nil => simp
      | cons second others =>
          rw [List.intercalate_cons_cons, List.count_append, List.count_append, inductionHypothesis]
          simp only [List.map_cons, List.sum_cons, List.length_cons, Nat.add_sub_cancel,
            Nat.add_mul, Nat.one_mul]
          omega

/-! ## Division -/

variable {β : Type}

theorem splitOnP_map (p : β → Bool) (f : α → β) (items : List α) :
    (items.map f).splitOnP p = (items.splitOnP (p ∘ f)).map (List.map f) := by
  induction items with
  | nil => rfl
  | cons item rest inductionHypothesis =>
      rw [List.map_cons, List.splitOnP_cons_eq_if_modifyHead, List.splitOnP_cons_eq_if_modifyHead,
        inductionHypothesis]
      by_cases divides : p (f item) = true
      · simp [divides]
      · simp only [Function.comp_apply, if_neg divides]
        cases rest.splitOnP (p ∘ f) <;> rfl

theorem splitOnP_append {p : α → Bool} {front : List α} (free : ∀ item ∈ front, p item = false)
    (back : List α) : (front ++ back).splitOnP p = (back.splitOnP p).modifyHead (front ++ ·) := by
  induction front with
  | nil =>
      obtain ⟨first, later, divided⟩ := List.exists_cons_of_ne_nil (List.splitOnP_ne_nil p back)
      simp [divided]
  | cons item rest inductionHypothesis =>
      have ofItem := free item List.mem_cons_self
      rw [List.cons_append, List.splitOnP_cons_eq_if_modifyHead, ofItem, inductionHypothesis
        fun other member => free other (List.mem_cons_of_mem item member)]
      simp only [Bool.false_eq_true, if_false, List.modifyHead_modifyHead]
      rfl

theorem splitOnP_intercalate {p : α → Bool} {separator : α} (divides : p separator = true)
    {parts : List (List α)} (nonempty : parts ≠ [])
    (free : ∀ part ∈ parts, ∀ item ∈ part, p item = false) :
    ([separator].intercalate parts).splitOnP p = parts := by
  induction parts with
  | nil => exact absurd rfl nonempty
  | cons head tail inductionHypothesis =>
      have headFree := free head List.mem_cons_self
      cases tail with
      | nil =>
          rw [List.intercalate_singleton]
          exact List.splitOnP_eq_singleton headFree
      | cons second others =>
          rw [List.intercalate_cons_cons, List.append_assoc, List.singleton_append,
            List.splitOnP_append_cons_of_forall_mem headFree separator divides,
            inductionHypothesis (List.cons_ne_nil second others)
              fun part member => free part (List.mem_cons_of_mem head member)]

theorem intercalate_splitOnP {p : α → Bool} {separator : α}
    (only : ∀ item, p item = true → item = separator) (items : List α) :
    [separator].intercalate (items.splitOnP p) = items := by
  induction items with
  | nil => rfl
  | cons item rest inductionHypothesis =>
      obtain ⟨first, later, divided⟩ := List.exists_cons_of_ne_nil (List.splitOnP_ne_nil p rest)
      rw [divided] at inductionHypothesis
      rw [List.splitOnP_cons_eq_if_modifyHead, divided]
      by_cases divides : p item = true
      · rw [if_pos divides, List.intercalate_cons_cons, inductionHypothesis, only item divides]
        rfl
      · rw [if_neg divides, List.modifyHead_cons, ← inductionHypothesis]
        cases later with
        | nil => simp
        | cons second others => simp [List.intercalate_cons_cons]

theorem mem_of_mem_splitOnP {p : α → Bool} {items part : List α}
    (member : part ∈ items.splitOnP p) : ∀ item ∈ part, item ∈ items := by
  induction items generalizing part with
  | nil =>
      rw [List.splitOnP_nil, List.mem_singleton] at member
      simp [member]
  | cons head rest inductionHypothesis =>
      obtain ⟨first, later, divided⟩ := List.exists_cons_of_ne_nil (List.splitOnP_ne_nil p rest)
      rw [divided] at inductionHypothesis
      rw [List.splitOnP_cons_eq_if_modifyHead, divided] at member
      intro item inside
      split at member
      · rcases List.mem_cons.mp member with rfl | inRest
        · cases inside
        · exact List.mem_cons_of_mem head (inductionHypothesis inRest item inside)
      · rw [List.modifyHead_cons] at member
        rcases List.mem_cons.mp member with rfl | inLater
        · rcases List.mem_cons.mp inside with rfl | inFirst
          · exact List.mem_cons_self
          · exact List.mem_cons_of_mem head (inductionHypothesis List.mem_cons_self item inFirst)
        · exact List.mem_cons_of_mem head
            (inductionHypothesis (List.mem_cons_of_mem first inLater) item inside)

theorem free_of_mem_splitOnP {p : α → Bool} {items part : List α}
    (member : part ∈ items.splitOnP p) : ∀ item ∈ part, p item = false := by
  induction items generalizing part with
  | nil =>
      rw [List.splitOnP_nil, List.mem_singleton] at member
      simp [member]
  | cons head rest inductionHypothesis =>
      obtain ⟨first, later, divided⟩ := List.exists_cons_of_ne_nil (List.splitOnP_ne_nil p rest)
      rw [List.splitOnP_cons_eq_if_modifyHead] at member
      by_cases divides : p head = true
      · rw [if_pos divides] at member
        rcases List.mem_cons.mp member with rfl | inRest
        · simp
        · exact inductionHypothesis inRest
      · rw [if_neg divides, divided, List.modifyHead_cons] at member
        rw [divided] at inductionHypothesis
        rcases List.mem_cons.mp member with rfl | inLater
        · intro item inside
          rcases List.mem_cons.mp inside with rfl | inside
          · exact Bool.not_eq_true _ ▸ divides
          · exact inductionHypothesis List.mem_cons_self item inside
        · exact inductionHypothesis (List.mem_cons_of_mem first inLater)

end TypeStub.Intercalate
