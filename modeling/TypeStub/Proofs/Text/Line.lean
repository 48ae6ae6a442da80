import TypeStub.Proofs.Text.Trimmed

/-!
Contract: the lines of a text and its rows.

Owns:
- that rows and lines hold no line feed, and that text written in rows divides into them;
- what lines have in common with the rows that they come from: the same text but for carriage
  returns at their ends, and for an empty row at the end of all.
-/

namespace TypeStub.Text

variable {text : List Char} {all : List (List Char)}

theorem feed_not_mem_rows {row : List Char} (member : row ∈ rows text) : '\n' ∉ row := by
  rw [rows, List.splitOn_eq_splitOnP] at member
  intro inside
  have free := Intercalate.free_of_mem_splitOnP member '\n' inside
  simp at free

/-- A line is its row without a carriage return at most. -/
theorem exists_return (row : List Char) :
    ∃ ending, row = dropFinalReturn row ++ ending ∧ ∀ c ∈ ending, c = '\r' := by
  unfold dropFinalReturn
  split
  · rename_i ends
    obtain ⟨front, rfl⟩ := List.getLast?_eq_some_iff.mp ends
    exact ⟨['\r'], by rw [List.dropLast_concat], by simp⟩
  · exact ⟨[], by simp, by simp⟩

theorem exists_row_of_mem_linesOfRows {line : List Char} (member : line ∈ linesOfRows all) :
    ∃ row ∈ all, line <+: row := by
  induction all with
  | nil => simp [linesOfRows] at member
  | cons row later inductionHypothesis =>
      cases later with
      | nil =>
          unfold linesOfRows at member
          split at member
          · cases member
          · rw [List.mem_singleton.mp member]
            exact ⟨row, List.mem_cons_self, List.prefix_rfl⟩
      | cons next rest =>
          rcases List.mem_cons.mp member with rfl | inLater
          · obtain ⟨ending, whole, -⟩ := exists_return row
            exact ⟨row, List.mem_cons_self, ending, whole.symm⟩
          · obtain ⟨other, inRows, isPrefix⟩ := inductionHypothesis inLater
            exact ⟨other, List.mem_cons_of_mem row inRows, isPrefix⟩

theorem feed_not_mem_lines {line : List Char} (member : line ∈ lines text) : '\n' ∉ line := by
  obtain ⟨row, inRows, isPrefix⟩ := exists_row_of_mem_linesOfRows member
  exact fun feed => feed_not_mem_rows inRows (isPrefix.subset feed)

theorem mem_of_mem_lines {line : List Char} (member : line ∈ lines text) {c : Char}
    (inside : c ∈ line) : c ∈ text := by
  obtain ⟨row, inRows, isPrefix⟩ := exists_row_of_mem_linesOfRows member
  rw [rows, List.splitOn_eq_splitOnP] at inRows
  exact Intercalate.mem_of_mem_splitOnP inRows c (isPrefix.subset inside)

/-! ## Text that is written in rows -/

theorem rows_unrows (noFeed : ∀ row ∈ all, '\n' ∉ row) (nonempty : all ≠ []) :
    rows (unrows all) = all :=
  List.splitOn_intercalate _ noFeed nonempty

theorem lines_unrows (noFeed : ∀ row ∈ all, '\n' ∉ row) :
    lines (unrows all) = linesOfRows all := by
  by_cases empty : all = []
  · rw [empty]
    rfl
  · rw [lines, rows_unrows noFeed empty]

theorem dropFinalReturn_eq_self {row : List Char} (ends : row.getLast? ≠ some '\r') :
    dropFinalReturn row = row :=
  if_neg ends

/-- Rows are lines if none ends in a carriage return and the last one is not empty. -/
theorem linesOfRows_eq_self (noReturn : ∀ row ∈ all, row.getLast? ≠ some '\r')
    (ends : all.getLast? ≠ some []) : linesOfRows all = all := by
  induction all with
  | nil => rfl
  | cons row later inductionHypothesis =>
      obtain ⟨ofRow, ofLater⟩ := List.forall_mem_cons.mp noReturn
      cases later with
      | nil =>
          have nonempty : row ≠ [] := by simpa using ends
          simp [linesOfRows, nonempty]
      | cons next rest =>
          rw [List.getLast?_cons_cons] at ends
          rw [linesOfRows, dropFinalReturn_eq_self ofRow, inductionHypothesis ofLater ends]

/-- An empty row at the end is no line. -/
theorem linesOfRows_ended (noReturn : ∀ row ∈ all, row.getLast? ≠ some '\r') :
    linesOfRows (all ++ [[]]) = all := by
  induction all with
  | nil => rfl
  | cons row later inductionHypothesis =>
      obtain ⟨ofRow, ofLater⟩ := List.forall_mem_cons.mp noReturn
      have ended := inductionHypothesis ofLater
      cases later with
      | nil => simp [linesOfRows, dropFinalReturn_eq_self ofRow]
      | cons next rest =>
          rw [List.cons_append] at ended
          rw [List.cons_append, List.cons_append, linesOfRows, ended,
            dropFinalReturn_eq_self ofRow]

theorem isBlankText_returns {returns : List Char} (ofReturns : ∀ c ∈ returns, c = '\r') :
    isBlankText returns = true := by
  apply isBlankText_iff.mpr
  intro c member
  rw [ofReturns c member]
  decide

theorem trim_dropFinalReturn (row : List Char) : trim (dropFinalReturn row) = trim row := by
  obtain ⟨ending, whole, ofEnding⟩ := exists_return row
  have blank := isBlankText_iff.mp (isBlankText_returns ofEnding)
  have padded : trim ([] ++ (dropFinalReturn row ++ ending)) = trim (dropFinalReturn row) :=
    trim_pad (by simp) blank
  rw [List.nil_append, ← whole] at padded
  exact padded.symm

theorem map_trim_linesOfRows (ends : all.getLast? ≠ some []) :
    (linesOfRows all).map trim = all.map trim := by
  induction all with
  | nil => rfl
  | cons row later inductionHypothesis =>
      cases later with
      | nil =>
          have nonempty : row ≠ [] := by simpa using ends
          simp [linesOfRows, nonempty]
      | cons next rest =>
          rw [List.getLast?_cons_cons] at ends
          rw [linesOfRows, List.map_cons, List.map_cons, trim_dropFinalReturn,
            inductionHypothesis ends]

/-- Who passes over carriage returns at the end finds in lines what is found in rows. -/
theorem filterMap_linesOfRows {β : Type} {read : List Char → Option β} (nothing : read [] = none)
    (passes : ∀ row, read (dropFinalReturn row) = read row) (all : List (List Char)) :
    (linesOfRows all).filterMap read = all.filterMap read := by
  induction all with
  | nil => rfl
  | cons row later inductionHypothesis =>
      cases later with
      | nil =>
          unfold linesOfRows
          split
          · rename_i empty
            rw [List.isEmpty_iff.mp empty]
            simp [nothing]
          · rfl
      | cons next rest =>
          rw [linesOfRows]
          cases found : read row with
          | none =>
              have ofLine : read (dropFinalReturn row) = none := by rw [passes, found]
              rw [List.filterMap_cons_none ofLine, inductionHypothesis,
                List.filterMap_cons_none found]
          | some result =>
              have ofLine : read (dropFinalReturn row) = some result := by rw [passes, found]
              rw [List.filterMap_cons_some ofLine, inductionHypothesis,
                List.filterMap_cons_some found]

end TypeStub.Text
