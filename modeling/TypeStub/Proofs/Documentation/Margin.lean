import Mathlib.Data.List.Forall2
import TypeStub.Documentation.Dedent
import TypeStub.Proofs.Outcome
import TypeStub.Proofs.Text.Line

/-!
Contract: what dedenting takes from the lines of a text.

Owns:
- `IsMargin`, the least indentation of the lines after the first;
- `Dedents`, the rows that lines become when each loses its own indentation or the margin;
- `expandTabs_eq_intercalate`, what becomes of tabs before that;
- that a dedented text is written in these rows, without the blank ones at either end.
-/

namespace TypeStub.Documentation

open Text

/-! ## The margin -/

/-- The width is the least indentation of the lines that are not blank, or zero if all are. -/
inductive IsMargin (later : List (List Char)) : Nat → Prop
  | nothing (blank : ∀ line ∈ later, isBlankText line = true) : IsMargin later 0
  | least {line : List Char} (member : line ∈ later) (visible : isBlankText line = false)
      (least : ∀ other ∈ later, isBlankText other = false →
        indentation line ≤ indentation other) :
      IsMargin later (indentation line)

theorem isMargin_margin (later : List (List Char)) : IsMargin later (margin later) := by
  unfold margin
  cases isLeast : ((later.filter fun line => !isBlankText line).map indentation).min? with
  | none =>
      apply IsMargin.nothing
      intro line member
      have none := List.map_eq_nil_iff.mp (List.min?_eq_none_iff.mp isLeast)
      simpa using List.filter_eq_nil_iff.mp none line member
  | some width =>
      obtain ⟨attained, below⟩ := List.min?_eq_some_iff.mp isLeast
      obtain ⟨line, inVisible, rfl⟩ := List.mem_map.mp attained
      obtain ⟨member, visible⟩ := List.mem_filter.mp inVisible
      apply IsMargin.least member (by simpa using visible)
      intro other inLater ofOther
      apply below
      exact List.mem_map_of_mem (List.mem_filter.mpr ⟨inLater, by simp [ofOther]⟩)

theorem IsMargin.le_indentation {later : List (List Char)} {width : Nat}
    (isMargin : IsMargin later width) {line : List Char} (member : line ∈ later)
    (visible : isBlankText line = false) : width ≤ indentation line := by
  cases isMargin with
  | nothing blank => exact Nat.zero_le _
  | least _ _ least => exact least line member visible

/-! ## Lines that lose their indentation -/

/-- A line after the first loses the margin and the carriage returns at its end. What becomes of
a blank line does not show. -/
inductive LosesMargin (width : Nat) : List Char → List Char → Prop
  | visible {indent row returns : List Char} (isVisible : isBlankText row = false)
      (ofWidth : indent.length = width) (ofIndent : isBlankText indent = true)
      (ofReturns : ∀ c ∈ returns, c = '\r') (ends : row.getLast? ≠ some '\r') :
      LosesMargin width (indent ++ (row ++ returns)) row
  | blank {line row : List Char} (blankLine : isBlankText line = true) (inside : row <:+: line) :
      LosesMargin width line row

/-- The first line loses all of its indentation, and the others lose the margin. -/
inductive Dedents : List (List Char) → List (List Char) → Prop
  | nothing : Dedents [] []
  | lines {indent row : List Char} {later rows : List (List Char)} {width : Nat}
      (ofIndent : isBlankText indent = true) (begins : ∀ c ∈ row.head?, isBlank c = false)
      (isMargin : IsMargin later width) (ofLater : List.Forall₂ (LosesMargin width) later rows) :
      Dedents ((indent ++ row) :: later) (row :: rows)

section Lines

variable {width : Nat} {line row : List Char}

theorem exists_stripIndent (enough : width ≤ indentation line) :
    ∃ indent, line = indent ++ stripIndent width line ∧ indent.length = width ∧
      isBlankText indent = true := by
  have inLine : indentation line ≤ line.length := (List.takeWhile_prefix isBlank).length_le
  refine ⟨line.take width, ?_, ?_, ?_⟩
  · rw [stripIndent, Nat.min_eq_left enough, List.take_append_drop]
  · rw [List.length_take]
    omega
  · have short : (line.take width).length ≤ (line.takeWhile isBlank).length := by
      rw [List.length_take]
      exact Nat.le_trans (Nat.min_le_left _ _) enough
    have inside : line.take width <+: line.takeWhile isBlank :=
      List.prefix_of_prefix_length_le (List.take_prefix _ _) (List.takeWhile_prefix _) short
    exact isBlankText_iff.mpr fun c member => List.mem_takeWhile_imp (inside.subset member)

theorem exists_returns (text : List Char) :
    ∃ returns, text = trimEndBy (· == '\r') text ++ returns ∧ (∀ c ∈ returns, c = '\r') ∧
      (trimEndBy (· == '\r') text).getLast? ≠ some '\r' := by
  refine ⟨text.rtakeWhile (· == '\r'), ?_, ?_, ?_⟩
  · exact (List.rdropWhile_append_rtakeWhile (p := (· == '\r'))).symm
  · intro c member
    exact beq_iff_eq.mp (List.mem_rtakeWhile_imp (p := (· == '\r')) member)
  · intro ends
    rw [trimEndBy, List.getLast?_reverse] at ends
    have stops := List.head?_dropWhile_not (· == '\r') text.reverse
    rw [ends] at stops
    cases stops

theorem losesMargin_stripIndent (enough : isBlankText line = false → width ≤ indentation line) :
    LosesMargin width line (trimEndBy (· == '\r') (stripIndent width line)) := by
  obtain ⟨returns, stripped, ofReturns, ends⟩ := exists_returns (stripIndent width line)
  cases blank : isBlankText line with
  | true =>
      apply LosesMargin.blank blank
      exact (List.rdropWhile_prefix _ _).isInfix.trans (List.drop_suffix _ _).isInfix
  | false =>
      obtain ⟨indent, whole, ofWidth, ofIndent⟩ := exists_stripIndent (enough blank)
      generalize trimEndBy (· == '\r') (stripIndent width line) = row at stripped ends
      rw [stripped] at whole
      rw [whole, isBlankText_append, isBlankText_append, ofIndent, isBlankText_returns ofReturns,
        Bool.true_and, Bool.and_true] at blank
      rw [whole]
      exact .visible blank ofWidth ofIndent ofReturns ends

theorem LosesMargin.isInfix (loses : LosesMargin width line row) : row <:+: line := by
  cases loses with
  | visible => exact ⟨_, _, List.append_assoc _ _ _⟩
  | blank _ inside => exact inside

theorem LosesMargin.trim_eq (loses : LosesMargin width line row) : trim row = trim line := by
  cases loses with
  | visible _ _ ofIndent ofReturns _ =>
      have blankReturns := isBlankText_returns ofReturns
      exact (trim_pad (isBlankText_iff.mp ofIndent) (isBlankText_iff.mp blankReturns)).symm
  | blank blankLine inside =>
      rw [trim_eq_nil_iff.mpr blankLine, trim_eq_nil_iff]
      exact isBlankText_of_isInfix blankLine inside

theorem indentation_append {indent : List Char} (ofIndent : isBlankText indent = true)
    (text : List Char) : indentation (indent ++ text) = indent.length + indentation text := by
  rw [indentation, List.takeWhile_append_of_pos (isBlankText_iff.mp ofIndent), List.length_append,
    ← indentation]

/-- The indentation of a text that is not blank ends before what stands behind the text. -/
theorem indentation_append_of_visible {text : List Char} (visible : isBlankText text = false)
    (behind : List Char) : indentation (text ++ behind) = indentation text := by
  have stops : (text.takeWhile isBlank).length ≠ text.length := by
    intro same
    have whole := (List.takeWhile_prefix isBlank (l := text)).eq_of_length same
    have blank : isBlankText text = true :=
      isBlankText_iff.mpr (List.takeWhile_eq_self_iff.mp whole)
    rw [blank] at visible
    cases visible
  rw [indentation, List.takeWhile_append, if_neg stops, ← indentation]

/-- A line that is not blank keeps its indentation behind the margin. -/
theorem LosesMargin.indentation_eq (loses : LosesMargin width line row)
    (visible : isBlankText line = false) : indentation line = width + indentation row := by
  cases loses with
  | visible isVisible ofWidth ofIndent ofReturns ends =>
      rw [indentation_append ofIndent, indentation_append_of_visible isVisible, ofWidth]
  | blank blankLine inside =>
      rw [blankLine] at visible
      cases visible

theorem LosesMargin.isBlankText_eq (loses : LosesMargin width line row) :
    isBlankText row = isBlankText line := by
  rw [← isBlankText_trim row, loses.trim_eq, isBlankText_trim]

end Lines

/-! ## All lines of a text -/

variable {all rows : List (List Char)}

/-- Dedenting gives the rows that lines become, without the blank ones at either end. -/
theorem exists_dedents (all : List (List Char)) :
    ∃ rows, Dedents all rows ∧ IsCore isBlankText rows (dedentLines all) := by
  cases all with
  | nil => exact ⟨[], .nothing, isCore_iff.mpr rfl⟩
  | cons first later =>
      -- What is peeled of these rows is their core by definition.
      refine ⟨trimStart first :: later.map fun line =>
        trimEndBy (· == '\r') (stripIndent (margin later) line), ?_, isCore_iff.mpr rfl⟩
      have whole : first.takeWhile isBlank ++ trimStart first = first :=
        List.takeWhile_append_dropWhile
      have ofIndent : isBlankText (first.takeWhile isBlank) = true :=
        isBlankText_iff.mpr fun c => List.mem_takeWhile_imp
      have ofLater : List.Forall₂ (LosesMargin (margin later)) later
          (later.map fun line => trimEndBy (· == '\r') (stripIndent (margin later) line)) := by
        rw [List.forall₂_map_right_iff, List.forall₂_same]
        intro line member
        apply losesMargin_stripIndent
        exact (isMargin_margin later).le_indentation member
      have dedents := Dedents.lines ofIndent (begins_dropWhile isBlank first)
        (isMargin_margin later) ofLater
      rwa [← trimStart, whole] at dedents

namespace Dedents

/-- What does not depend on white space that lines lose is the same of the rows. -/
theorem map_eq {β : Type} {f : List Char → β} (dedents : Dedents all rows)
    (ofFirst : ∀ indent row, indent ++ row ∈ all → isBlankText indent = true →
      f row = f (indent ++ row))
    (ofLater : ∀ width, ∀ line ∈ all, ∀ row, LosesMargin width line row → f row = f line) :
    rows.map f = all.map f := by
  cases dedents with
  | nothing => rfl
  | @lines indent row later rows width ofIndent begins isMargin loses =>
      -- `ofLater` is about all lines, so the induction is on lines that are among them.
      have same : ∀ later' rows' : List (List Char), later' ⊆ later →
          List.Forall₂ (LosesMargin width) later' rows' → rows'.map f = later'.map f := by
        intro later' rows' inside steps
        induction steps with
        | nil => rfl
        | cons step _ inductionHypothesis =>
            obtain ⟨inLater, others⟩ := List.cons_subset.mp inside
            rw [List.map_cons, List.map_cons, inductionHypothesis others,
              ofLater width _ (List.mem_cons_of_mem _ inLater) _ step]
      rw [List.map_cons, List.map_cons, ofFirst indent row List.mem_cons_self ofIndent,
        same later rows (List.Subset.refl later) loses]

theorem map_trim (dedents : Dedents all rows) : rows.map trim = all.map trim := by
  apply dedents.map_eq
  · intro indent row _ ofIndent
    have padded : trim (indent ++ (row ++ [])) = trim row :=
      trim_pad (isBlankText_iff.mp ofIndent) (by simp)
    rw [List.append_nil] at padded
    exact padded.symm
  · exact fun width line _ row loses => loses.trim_eq

theorem feed_not_mem (dedents : Dedents all rows) (noFeed : ∀ line ∈ all, '\n' ∉ line) :
    ∀ row ∈ rows, '\n' ∉ row := by
  cases dedents with
  | nothing => simp
  | @lines indent row later rows width ofIndent begins isMargin loses =>
      obtain ⟨inFirst, inLater⟩ := List.forall_mem_cons.mp noFeed
      rw [List.forall_mem_cons]
      constructor
      · exact fun inside => inFirst (List.mem_append_right _ inside)
      · intro other member inside
        obtain ⟨line, isLine, step⟩ := Outcome.exists_left_of_mem loses member
        exact inLater line isLine (step.isInfix.subset inside)

/-- Behind the margin, indentations differ as they did. -/
theorem indentation_sub (dedents : Dedents all rows) :
    ∀ one ∈ all.tail.zip rows.tail, ∀ other ∈ all.tail.zip rows.tail,
      isBlankText one.1 = false → isBlankText other.1 = false →
        (indentation one.1 : Int) - indentation other.1 =
          indentation one.2 - indentation other.2 := by
  cases dedents with
  | nothing => simp
  | @lines indent row later rows width ofIndent begins isMargin loses =>
      obtain ⟨-, ofPair⟩ := List.forall₂_iff_zip.mp loses
      intro one inOne other inOther visibleOne visibleOther
      have ofOne := (ofPair inOne).indentation_eq visibleOne
      have ofOther := (ofPair inOther).indentation_eq visibleOther
      omega

/-- The margin is all that the line with the least indentation has. -/
theorem exists_flush (dedents : Dedents all rows)
    (visible : ∃ line ∈ all.tail, isBlankText line = false) :
    ∃ row ∈ rows.tail, isBlankText row = false ∧ indentation row = 0 := by
  cases dedents with
  | nothing => simp at visible
  | @lines indent row later rows width ofIndent begins isMargin loses =>
      cases isMargin with
      | nothing blank =>
          obtain ⟨line, inLater, isVisible⟩ := visible
          rw [blank line inLater] at isVisible
          cases isVisible
      | @least line member isVisible least =>
          -- The margin is as wide as this line is indented, so nothing is left before its text.
          obtain ⟨flush, inRows, step⟩ := Outcome.exists_right_of_mem loses member
          have kept := step.indentation_eq isVisible
          refine ⟨flush, inRows, ?_, ?_⟩
          · rw [step.isBlankText_eq, isVisible]
          · omega

end Dedents

/-! ## Dedented texts -/

/-- What is written of the rows that the lines of a text become, and which of them are lines
again. -/
theorem exists_dedents_text (text : List Char) :
    ∃ rows, Dedents (lines text) rows ∧ IsCore isBlankText rows (dedentLines (lines text)) ∧
      (∀ row ∈ dedentLines (lines text), '\n' ∉ row) ∧
      lines (unrows (dedentLines (lines text))) = linesOfRows (dedentLines (lines text)) := by
  obtain ⟨rows, dedents, isCore⟩ := exists_dedents (lines text)
  have noFeed := dedents.feed_not_mem fun _ => feed_not_mem_lines
  have inLine : ∀ row ∈ dedentLines (lines text), '\n' ∉ row :=
    fun row member => noFeed row (isCore.mem member)
  exact ⟨rows, dedents, isCore, inLine, lines_unrows inLine⟩

/-- Trimmed, the lines of a dedented text are those of the text without blank ones at its ends. -/
theorem isCore_trim_dedent (raw : String) :
    IsCore isBlankText ((lines (expandTabs raw.toList)).map trim)
      ((lines (dedent raw).toList).map trim) := by
  obtain ⟨rows, dedents, isCore, -, again⟩ := exists_dedents_text (expandTabs raw.toList)
  have ends : (dedentLines (lines (expandTabs raw.toList))).getLast? ≠ some [] := by
    intro isLast
    cases isCore.ends [] isLast
  rw [dedent, String.toList_ofList, again, map_trim_linesOfRows ends, ← dedents.map_trim]
  exact isCore.map isBlankText_trim

/-! ## Tabs -/

theorem mem_expandTabs {text : List Char} {c : Char} (member : c ∈ expandTabs text) :
    c = ' ' ∨ c ∈ text ∧ c ≠ '\t' := by
  obtain ⟨original, inText, inside⟩ := List.mem_flatMap.mp member
  split at inside
  · exact .inl (List.eq_of_mem_replicate inside)
  · rename_i noTab
    rw [List.mem_singleton.mp inside]
    exact .inr ⟨inText, noTab⟩

theorem expandTabs_of_not_mem {text : List Char} (noTab : '\t' ∉ text) :
    expandTabs text = text := by
  have kept : ∀ c ∈ text, (if c = '\t' then List.replicate 8 ' ' else [c]) = [c] := by
    intro c member
    rw [if_neg]
    rintro rfl
    exact noTab member
  rw [expandTabs, List.flatMap_congr kept, List.flatMap_singleton']

private theorem expandTabs_intercalate {pieces : List (List Char)}
    (noTab : ∀ piece ∈ pieces, '\t' ∉ piece) :
    expandTabs (['\t'].intercalate pieces) = (List.replicate 8 ' ').intercalate pieces := by
  induction pieces with
  | nil => rfl
  | cons head tail inductionHypothesis =>
      obtain ⟨ofHead, ofTail⟩ := List.forall_mem_cons.mp noTab
      have kept := expandTabs_of_not_mem ofHead
      cases tail with
      | nil => simpa using kept
      | cons next rest =>
          rw [expandTabs] at kept inductionHypothesis ⊢
          rw [List.intercalate_cons_cons, List.intercalate_cons_cons, List.flatMap_append,
            List.flatMap_append, kept, inductionHypothesis ofTail]
          rfl

/-- A text is cut at its tabs and joined again with eight spaces. All other characters stay as
they are. -/
theorem expandTabs_eq_intercalate (text : List Char) :
    expandTabs text = (List.replicate 8 ' ').intercalate (text.splitOn '\t') := by
  have noTab : ∀ piece ∈ text.splitOn '\t', '\t' ∉ piece := by
    intro piece isPiece inside
    rw [List.splitOn_eq_splitOnP] at isPiece
    simpa using Intercalate.free_of_mem_splitOnP isPiece '\t' inside
  rw [← expandTabs_intercalate noTab, List.intercalate_splitOn]

/-! ## Dedented texts -/

/-- A text is written in the rows that lines become, but for blank ones at either end. -/
structure IsDedented (all rows kept : List (List Char)) (clean : List Char) : Prop where
  dedents : Dedents all rows
  core : IsCore isBlankText rows kept
  written : clean = unrows kept
  inLine : ∀ row ∈ kept, '\n' ∉ row
  trimmed : IsCore isBlankText (all.map trim) ((lines clean).map trim)
  /-- Indentations behind the margin differ as they did. -/
  differences : ∀ one ∈ all.tail.zip rows.tail, ∀ other ∈ all.tail.zip rows.tail,
    isBlankText one.1 = false → isBlankText other.1 = false →
      (indentation one.1 : Int) - indentation other.1 = indentation one.2 - indentation other.2
  /-- If a line after the first can be seen, one of them begins at the left. -/
  flush : (∃ line ∈ all.tail, isBlankText line = false) →
    ∃ row ∈ rows.tail, row ∈ kept ∧ isBlankText row = false ∧ indentation row = 0

/-- Dedenting takes the indentation that lines have in common, and no text. The lines are those
of the text with eight spaces for each tab, by `expandTabs_eq_intercalate`. -/
theorem isDedented_dedent (raw : String) :
    ∃ rows kept, IsDedented (lines (expandTabs raw.toList)) rows kept (dedent raw).toList := by
  obtain ⟨rows, dedents, isCore, inLine, -⟩ := exists_dedents_text (expandTabs raw.toList)
  refine ⟨rows, _, dedents, isCore, String.toList_ofList, inLine, isCore_trim_dedent raw,
    dedents.indentation_sub, ?_⟩
  intro visible
  obtain ⟨row, inRows, isVisible, flush⟩ := dedents.exists_flush visible
  refine ⟨row, inRows, isCore.mem_of_not (List.mem_of_mem_tail inRows) ?_, isVisible, flush⟩
  rw [isVisible]
  exact Bool.false_ne_true

/-- White space wider than a byte counts once, and a blank line for nothing. -/
example : dedent "  Head\n\u3000\u3000one\n \n\u3000\u3000\u3000two\r\r\n\t" =
    "Head\none\n\n\u3000two" := by decide

end TypeStub.Documentation
