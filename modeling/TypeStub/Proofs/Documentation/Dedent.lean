import Mathlib.Data.List.Basic
import Mathlib.Data.List.TakeWhile
import TypeStub.Proofs.Documentation.Margin

/-!
Contract: documentation that dedenting leaves as it is.

Owns:
- `Documentation.IsFlush`, the rows that begin with no white space and have no tab or carriage
  return;
- that a text of such rows is its own dedented form, whether or not its last row is ended.
-/

namespace TypeStub.Documentation

open Text

/-- The row begins with a character, and all of it stays in its line. -/
structure IsFlush (row : List Char) : Prop where
  begins : row.head?.any (fun c => !isBlank c) = true
  noTab : '\t' ∉ row
  noFeed : '\n' ∉ row
  noReturn : '\r' ∉ row

namespace IsFlush

variable {row : List Char}

theorem trimStart_eq (flush : IsFlush row) : trimStart row = row := by
  have begins := flush.begins
  cases row with
  | nil => rfl
  | cons c rest => exact List.dropWhile_cons_of_neg (by simpa using begins)

theorem indentation_eq (flush : IsFlush row) : indentation row = 0 := by
  have begins := flush.begins
  cases row with
  | nil => rfl
  | cons c rest =>
      rw [indentation, List.takeWhile_cons_of_neg (by simpa using begins)]
      rfl

theorem stripIndent_eq (flush : IsFlush row) (width : Nat) : stripIndent width row = row := by
  rw [stripIndent, flush.indentation_eq, Nat.min_zero, List.drop_zero]

theorem ne_nil (flush : IsFlush row) : row ≠ [] := by
  rintro rfl
  cases flush.begins

theorem not_isBlankText (flush : IsFlush row) : isBlankText row = false := by
  have begins := flush.begins
  cases row with
  | nil => cases begins
  | cons c rest =>
      have notBlank : isBlank c = false := by simpa using begins
      simp [isBlankText, notBlank]

theorem trimEnd_return_eq (flush : IsFlush row) : trimEndBy (· == '\r') row = row := by
  rw [trimEndBy, List.dropWhile_eq_self_iff.mpr, List.reverse_reverse]
  intro nonempty ends
  have isReturn := beq_iff_eq.mp ends
  exact flush.noReturn (List.mem_reverse.mp (isReturn ▸ List.getElem_mem nonempty))

end IsFlush

/-! ## Lines -/

/-- The last line may be ended by a line feed. -/
private theorem lines_flush {flushRows : List (List Char)} (nonempty : flushRows ≠ [])
    (flush : ∀ row ∈ flushRows, IsFlush row) {ending : List Char}
    (ends : ending = [] ∨ ending = ['\n']) :
    lines (unrows flushRows ++ ending) = flushRows := by
  have noFeed : ∀ row ∈ flushRows, '\n' ∉ row := fun row member => (flush row member).noFeed
  have noReturn : ∀ row ∈ flushRows, row.getLast? ≠ some '\r' :=
    fun row member isLast => (flush row member).noReturn (List.mem_of_getLast? isLast)
  rcases ends with rfl | rfl
  · rw [List.append_nil, lines_unrows noFeed]
    apply linesOfRows_eq_self noReturn
    intro isLast
    exact (flush [] (List.mem_of_getLast? isLast)).ne_nil rfl
  · have terminated : unrows (flushRows ++ [[]]) = unrows flushRows ++ ['\n'] :=
      unrows_append nonempty (List.cons_ne_nil _ _)
    have noFeedInAll : ∀ row ∈ flushRows ++ [[]], '\n' ∉ row :=
      List.forall_mem_append.mpr ⟨noFeed, by simp⟩
    rw [← terminated, lines_unrows noFeedInAll, linesOfRows_ended noReturn]

/-! ## Dedenting -/

private theorem dedentLines_flush {flushRows : List (List Char)}
    (flush : ∀ row ∈ flushRows, IsFlush row) : dedentLines flushRows = flushRows := by
  cases flushRows with
  | nil => rfl
  | cons first later =>
      have ofLater : (later.map fun line =>
          trimEndBy (· == '\r') (stripIndent (margin later) line)) = later := by
        refine (List.map_congr_left ?_).trans (List.map_id later)
        intro line member
        have ofLine := flush line (List.mem_cons_of_mem first member)
        rw [ofLine.stripIndent_eq, ofLine.trimEnd_return_eq, id]
      have isCore : IsCore isBlankText (first :: later) (first :: later) := by
        apply isCore_self
        · exact fun row isFirst => (flush row (List.mem_of_mem_head? isFirst)).not_isBlankText
        · exact fun row isLast => (flush row (List.mem_of_getLast? isLast)).not_isBlankText
      rw [dedentLines, ofLater, (flush first List.mem_cons_self).trimStart_eq]
      exact isCore_iff.mp isCore

/-- Rows without indentation stay as they are. -/
theorem dedent_flush {flushRows : List (List Char)} (nonempty : flushRows ≠ [])
    (flush : ∀ row ∈ flushRows, IsFlush row) {ending : String}
    (ends : ending = "" ∨ ending = "\n") :
    dedent (String.ofList (unrows flushRows) ++ ending) = String.ofList (unrows flushRows) := by
  have endsLine : ending.toList = [] ∨ ending.toList = ['\n'] := by
    rcases ends with rfl | rfl
    · exact .inl rfl
    · exact .inr rfl
  have inRows : '\t' ∉ unrows flushRows := by
    intro member
    rcases Intercalate.mem_or_mem member with inSeparator | ⟨row, inRows, inside⟩
    · simp at inSeparator
    · exact (flush row inRows).noTab inside
  have noTab : '\t' ∉ unrows flushRows ++ ending.toList := by
    refine List.not_mem_append inRows ?_
    rcases endsLine with isEmpty | isFeed
    · simp [isEmpty]
    · simp [isFeed]
  rw [dedent, String.toList_append, String.toList_ofList, expandTabs_of_not_mem noTab,
    lines_flush nonempty flush endsLine, dedentLines_flush flush]

theorem rows_flush {flushRows : List (List Char)} (nonempty : flushRows ≠ [])
    (flush : ∀ row ∈ flushRows, IsFlush row) : rows (unrows flushRows) = flushRows :=
  rows_unrows (fun row member => (flush row member).noFeed) nonempty

end TypeStub.Documentation
