import Mathlib.Data.List.DropRight
import TypeStub.Proofs.Text.Intercalate
import TypeStub.Text.Blank
import TypeStub.Text.Line

/-!
Contract: what is left of a list without the items at its ends that are to go.

Owns:
- `IsCore`, the part between such items at either end, which is unique;
- trimming of text as an instance of it;
- trimming of text that is written in rows: blank rows at either end count for nothing.
-/

namespace TypeStub.Text

section Core

variable {α : Type} {p : α → Bool} {items core : List α}

/-- `core` is left of `items` without the items at either end that satisfy `p`. -/
structure IsCore (p : α → Bool) (items core : List α) : Prop where
  between : ∃ front back, items = front ++ (core ++ back) ∧ (∀ item ∈ front, p item = true) ∧
    ∀ item ∈ back, p item = true
  begins : ∀ item ∈ core.head?, p item = false
  ends : ∀ item ∈ core.getLast?, p item = false

theorem dropWhile_of_begins (begins : ∀ item ∈ items.head?, p item = false) :
    items.dropWhile p = items := by
  cases items with
  | nil => rfl
  | cons first rest => exact List.dropWhile_cons_of_neg (by simp [begins first rfl])

theorem begins_dropWhile (p : α → Bool) (items : List α) :
    ∀ item ∈ (items.dropWhile p).head?, p item = false := by
  intro item isFirst
  have begins := List.head?_dropWhile_not p items
  rw [isFirst] at begins
  exact begins

/-- There is one core: what passing over items from the front and then from the back leaves. -/
theorem isCore_iff :
    IsCore p items core ↔ ((items.dropWhile p).reverse.dropWhile p).reverse = core := by
  constructor
  · rintro ⟨⟨front, back, rfl, ofFront, ofBack⟩, begins, ends⟩
    rw [List.dropWhile_append_of_pos ofFront]
    -- Without a core, nothing stops at what goes at the front.
    by_cases empty : core = []
    · have nothingLeft : back.dropWhile p = [] := List.dropWhile_eq_nil_iff.mpr ofBack
      simp [empty, nothingLeft]
    · have fromFront : (core ++ back).dropWhile p = core ++ back := by
        apply dropWhile_of_begins
        rwa [List.head?_append_of_ne_nil _ empty]
      have fromBack : core.reverse.dropWhile p = core.reverse := by
        apply dropWhile_of_begins
        rwa [List.head?_reverse]
      have ofReverse : ∀ item ∈ back.reverse, p item = true :=
        fun item member => ofBack item (List.mem_reverse.mp member)
      rw [fromFront, List.reverse_append, List.dropWhile_append_of_pos ofReverse, fromBack,
        List.reverse_reverse]
  · rintro rfl
    have divided : ((items.dropWhile p).rdropWhile p) ++ (items.dropWhile p).rtakeWhile p =
        items.dropWhile p := List.rdropWhile_append_rtakeWhile
    refine ⟨⟨items.takeWhile p, (items.dropWhile p).rtakeWhile p, ?_, ?_, ?_⟩, ?_, ?_⟩
    · change items = _ ++ ((items.dropWhile p).rdropWhile p ++ _)
      rw [divided, List.takeWhile_append_dropWhile]
    · exact fun item => List.mem_takeWhile_imp
    · exact fun item => List.mem_rtakeWhile_imp
    · intro item isFirst
      have ofCore : ((items.dropWhile p).rdropWhile p).head? = some item := isFirst
      apply begins_dropWhile p items
      rw [← divided, List.head?_append, ofCore]
      rfl
    · intro item isLast
      rw [List.getLast?_reverse] at isLast
      exact begins_dropWhile p _ item isLast

theorem exists_isCore (p : α → Bool) (items : List α) : ∃ core, IsCore p items core :=
  ⟨_, isCore_iff.mpr rfl⟩

theorem IsCore.mem (isCore : IsCore p items core) {item : α} (member : item ∈ core) :
    item ∈ items := by
  obtain ⟨front, back, divided, -, -⟩ := isCore.between
  rw [divided]
  exact List.mem_append_right _ (List.mem_append_left _ member)

theorem IsCore.mem_of_not (isCore : IsCore p items core) {item : α} (member : item ∈ items)
    (stays : ¬ p item = true) : item ∈ core := by
  obtain ⟨front, back, rfl, ofFront, ofBack⟩ := isCore.between
  rcases List.mem_append.mp member with inFront | inRest
  · exact absurd (ofFront item inFront) stays
  · rcases List.mem_append.mp inRest with inCore | inBack
    · exact inCore
    · exact absurd (ofBack item inBack) stays

/-- More items to go at either end make no difference. -/
theorem IsCore.pad (isCore : IsCore p items core) {front back : List α}
    (ofFront : ∀ item ∈ front, p item = true) (ofBack : ∀ item ∈ back, p item = true) :
    IsCore p (front ++ (items ++ back)) core := by
  obtain ⟨⟨before, after, rfl, ofBefore, ofAfter⟩, begins, ends⟩ := isCore
  refine ⟨⟨front ++ before, after ++ back, by simp, ?_, ?_⟩, begins, ends⟩
  · exact List.forall_mem_append.mpr ⟨ofFront, ofBefore⟩
  · exact List.forall_mem_append.mpr ⟨ofAfter, ofBack⟩

theorem isCore_self (begins : ∀ item ∈ items.head?, p item = false)
    (ends : ∀ item ∈ items.getLast?, p item = false) : IsCore p items items where
  between := ⟨[], [], by simp, by simp, by simp⟩
  begins := begins
  ends := ends

/-- The core of items that go to items alike. -/
theorem IsCore.map {β : Type} {q : β → Bool} {f : α → β} (isCore : IsCore p items core)
    (same : ∀ item, q (f item) = p item) : IsCore q (items.map f) (core.map f) := by
  obtain ⟨⟨front, back, rfl, ofFront, ofBack⟩, begins, ends⟩ := isCore
  refine ⟨⟨front.map f, back.map f, by simp, ?_, ?_⟩, ?_, ?_⟩
  · simpa [same] using ofFront
  · simpa [same] using ofBack
  · simpa [same] using begins
  · simpa [same] using ends

end Core

/-! ## Trimming -/

variable {text : List Char}

theorem isCore_trim (text : List Char) : IsCore isBlank text (trim text) :=
  isCore_iff.mpr rfl

theorem trim_eq_iff {core : List Char} : trim text = core ↔ IsCore isBlank text core :=
  isCore_iff.symm

theorem trim_trim (text : List Char) : trim (trim text) = trim text :=
  trim_eq_iff.mpr (isCore_self (isCore_trim text).begins (isCore_trim text).ends)

theorem trim_pad {front back : List Char} (ofFront : ∀ c ∈ front, isBlank c = true)
    (ofBack : ∀ c ∈ back, isBlank c = true) : trim (front ++ (text ++ back)) = trim text :=
  trim_eq_iff.mpr ((isCore_trim text).pad ofFront ofBack)

/-- The white space before a text is what trimming takes from its front. -/
theorem exists_trim (text : List Char) :
    ∃ tail, text = text.takeWhile isBlank ++ (trim text ++ tail) := by
  refine ⟨(text.dropWhile isBlank).rtakeWhile isBlank, ?_⟩
  change text = _ ++ ((text.dropWhile isBlank).rdropWhile isBlank ++ _)
  rw [List.rdropWhile_append_rtakeWhile, List.takeWhile_append_dropWhile]

/-- Trimming does not reach into what begins and ends with other characters than white space. -/
theorem exists_trim_append {lead mark : List Char} (ofLead : ∀ c ∈ lead, isBlank c = true)
    (nonempty : mark ≠ []) (isCore : IsCore isBlank mark mark) (text : List Char) :
    ∃ shorter, trim (lead ++ (mark ++ text)) = mark ++ shorter := by
  refine ⟨text.rdropWhile isBlank, ?_⟩
  have whole : lead ++ (mark ++ text) =
      lead ++ ((mark ++ text.rdropWhile isBlank) ++ text.rtakeWhile isBlank) := by
    rw [List.append_assoc, List.rdropWhile_append_rtakeWhile]
  rw [whole, trim_pad ofLead fun c => List.mem_rtakeWhile_imp]
  apply trim_eq_iff.mpr
  apply isCore_self
  · rw [List.head?_append_of_ne_nil _ nonempty]
    exact isCore.begins
  · intro c isLast
    by_cases empty : text.rdropWhile isBlank = []
    · rw [empty, List.append_nil] at isLast
      exact isCore.ends c isLast
    · rw [List.getLast?_append_of_ne_nil _ empty, List.rdropWhile, List.getLast?_reverse] at isLast
      exact begins_dropWhile isBlank _ c isLast

theorem trimEndBy_cons (drop : Char → Bool) (c : Char) (text : List Char) :
    trimEndBy drop (c :: text) =
      if (c :: text).all drop then [] else c :: trimEndBy drop text := by
  unfold trimEndBy
  rw [List.reverse_cons, List.dropWhile_append]
  cases left : text.reverse.dropWhile drop with
  | nil =>
      have ofText : text.all drop = true := by
        simpa using List.dropWhile_eq_nil_iff.mp left
      by_cases dropped : drop c = true <;> simp [dropped, ofText]
  | cons last others =>
      have stays : ¬ (c :: text).all drop = true := by
        intro dropped
        have nothing : text.reverse.dropWhile drop = [] :=
          List.dropWhile_eq_nil_iff.mpr (by simp_all)
        rw [left] at nothing
        cases nothing
      simp [stays]

theorem isBlankText_iff : isBlankText text = true ↔ ∀ c ∈ text, isBlank c = true :=
  List.all_eq_true

theorem isBlankText_append (left right : List Char) :
    isBlankText (left ++ right) = (isBlankText left && isBlankText right) :=
  List.all_append

theorem isBlankText_of_isInfix {part : List Char} (blank : isBlankText text = true)
    (inside : part <:+: text) : isBlankText part = true :=
  isBlankText_iff.mpr fun c member => isBlankText_iff.mp blank c (inside.subset member)

theorem trim_eq_nil_iff : trim text = [] ↔ isBlankText text = true := by
  rw [isBlankText_iff]
  constructor
  · intro nothing
    obtain ⟨⟨front, back, divided, ofFront, ofBack⟩, -, -⟩ := isCore_trim text
    rw [divided, nothing, List.nil_append]
    exact List.forall_mem_append.mpr ⟨ofFront, ofBack⟩
  · intro ofText
    have padded : trim (text ++ ([] ++ [])) = [] := trim_pad ofText (by simp)
    rwa [List.append_nil, List.append_nil] at padded

theorem isBlankText_trim (text : List Char) : isBlankText (trim text) = isBlankText text := by
  rw [Bool.eq_iff_iff, ← trim_eq_nil_iff, ← trim_eq_nil_iff, trim_trim]

/-! ## Rows -/

variable {all kept : List (List Char)}

theorem unrows_cons (head : List Char) {later : List (List Char)} (nonempty : later ≠ []) :
    unrows (head :: later) = head ++ '\n' :: unrows later := by
  rw [unrows, List.intercalate_cons_of_ne_nil nonempty, List.append_assoc, List.singleton_append,
    ← unrows]

theorem unrows_append {front back : List (List Char)} (frontNonempty : front ≠ [])
    (backNonempty : back ≠ []) :
    unrows (front ++ back) = unrows front ++ ('\n' :: unrows back) :=
  Intercalate.append ['\n'] frontNonempty backNonempty

theorem isBlankText_unrows (blank : ∀ row ∈ all, isBlankText row = true) :
    isBlankText (unrows all) = true := by
  rw [isBlankText_iff]
  apply Intercalate.forall_mem
  · intro c isFeed
    rw [List.mem_singleton.mp isFeed]
    decide
  · exact fun row member => isBlankText_iff.mp (blank row member)

/-- Blank rows before others are white space before their text. -/
private theorem exists_unrows_front {front : List (List Char)} (nonempty : kept ≠ [])
    (blank : ∀ row ∈ front, isBlankText row = true) :
    ∃ lead, isBlankText lead = true ∧ unrows (front ++ kept) = lead ++ unrows kept := by
  by_cases empty : front = []
  · exact ⟨[], rfl, by rw [empty]; rfl⟩
  · refine ⟨unrows front ++ ['\n'], ?_, ?_⟩
    · rw [isBlankText_append, isBlankText_unrows blank]
      decide
    · rw [unrows_append empty nonempty, List.append_assoc, List.singleton_append]

private theorem exists_unrows_back {back : List (List Char)} (nonempty : kept ≠ [])
    (blank : ∀ row ∈ back, isBlankText row = true) :
    ∃ tail, isBlankText tail = true ∧ unrows (kept ++ back) = unrows kept ++ tail := by
  by_cases empty : back = []
  · exact ⟨[], rfl, by rw [empty, List.append_nil, List.append_nil]⟩
  · refine ⟨'\n' :: unrows back, ?_, unrows_append nonempty empty⟩
    rw [isBlankText, List.all_cons, ← isBlankText, isBlankText_unrows blank]
    decide

theorem trim_unrows_pad {front back : List (List Char)}
    (ofFront : ∀ row ∈ front, isBlankText row = true)
    (ofBack : ∀ row ∈ back, isBlankText row = true) :
    trim (unrows (front ++ (kept ++ back))) = trim (unrows kept) := by
  by_cases empty : kept = []
  · have blank : isBlankText (unrows (front ++ (kept ++ back))) = true := by
      apply isBlankText_unrows
      rw [empty, List.nil_append]
      exact List.forall_mem_append.mpr ⟨ofFront, ofBack⟩
    rw [trim_eq_nil_iff.mpr blank, empty]
    rfl
  · obtain ⟨tail, ofTail, behind⟩ := exists_unrows_back empty ofBack
    have nonempty : kept ++ back ≠ [] := List.append_ne_nil_of_left_ne_nil empty back
    obtain ⟨lead, ofLead, before⟩ := exists_unrows_front nonempty ofFront
    rw [before, behind]
    exact trim_pad (isBlankText_iff.mp ofLead) (isBlankText_iff.mp ofTail)

theorem head?_unrows {first : List Char} (nonempty : first ≠ []) (later : List (List Char)) :
    (unrows (first :: later)).head? = first.head? := by
  by_cases alone : later = []
  · rw [alone, unrows, List.intercalate_singleton]
  · rw [unrows_cons first alone, List.head?_append_of_ne_nil _ nonempty]

theorem getLast?_unrows {last : List Char} (nonempty : last ≠ []) (earlier : List (List Char)) :
    (unrows (earlier ++ [last])).getLast? = last.getLast? := by
  by_cases alone : earlier = []
  · rw [alone, List.nil_append, unrows, List.intercalate_singleton]
  · rw [unrows, Intercalate.append_singleton _ alone, ← List.append_assoc,
      List.getLast?_append_of_ne_nil _ nonempty]

/-- Of trimmed rows, trimming takes away those at either end that are empty. -/
theorem trim_unrows_of_isCore (isCore : IsCore isBlankText all kept)
    (trimmed : ∀ row ∈ all, trim row = row) : trim (unrows all) = unrows kept := by
  obtain ⟨⟨front, back, rfl, ofFront, ofBack⟩, begins, ends⟩ := isCore
  have ofKept : ∀ row ∈ kept, IsCore isBlank row row := fun row member =>
    trim_eq_iff.mp (trimmed row (List.mem_append_right _ (List.mem_append_left _ member)))
  have nonempty : ∀ row, isBlankText row = false → row ≠ [] := by
    rintro row notBlank rfl
    cases notBlank
  rw [trim_unrows_pad ofFront ofBack]
  apply trim_eq_iff.mpr
  apply isCore_self
  · cases kept with
    | nil => simp [unrows]
    | cons first later =>
        rw [head?_unrows (nonempty first (begins first rfl))]
        exact (ofKept first List.mem_cons_self).begins
  · rcases List.eq_nil_or_concat kept with rfl | ⟨earlier, last, rfl⟩
    · simp [unrows]
    · rw [List.concat_eq_append] at ofKept ends ⊢
      rw [getLast?_unrows (nonempty last (ends last (by simp)))]
      exact (ofKept last (by simp)).ends

end TypeStub.Text
