import TypeStub.Proofs.Documentation.Directive

/-!
Contract: what a description keeps of a text, and what it leaves to the readers of directives.

Owns:
- the lines of a description, which is its own description and has no directive about types;
- `Directive.IsTypeOpening`, how the rows begin that are read as directives about types;
- `AccountsForLines`, where each line of a text goes: into the description, to a reader of
  directives, or nowhere.
-/

namespace TypeStub

open Text

namespace Directive

/-- The row is read as a directive about types. -/
def isMatched (row : List Char) : Bool :=
  (typeOfRow? row).isSome || (returnOfRow? .rtype row).isSome

/-- How a directive about types begins, up to the colon before what it says. -/
inductive IsTypeOpening : List Char → Prop
  | named {blanks name : List Char} (nonempty : blanks ≠ [])
      (ofBlanks : ∀ c ∈ blanks, isSpaceOrTab c = true) (isName : IsName name) :
      IsTypeOpening (":type".toList ++ (blanks ++ (name ++ [':'])))
  | returned : IsTypeOpening ":rtype:".toList

theorem isTypeLine_iff {line : List Char} :
    Documentation.isTypeLine line = true ↔
      ":type".toList <+: line ∨ ":rtype".toList <+: line := by
  have begins : ∀ marker : List Char, (after? marker line).isSome = true ↔ marker <+: line := by
    intro marker
    rw [Option.isSome_iff_exists]
    simp only [after?_eq_some_iff]
    exact exists_congr fun rest => eq_comm
  rw [Documentation.isTypeLine, Bool.or_eq_true, begins, begins]

namespace IsTypeOpening

variable {opening : List Char}

theorem isTypeLine (isOpening : IsTypeOpening opening) (rest : List Char) :
    Documentation.isTypeLine (opening ++ rest) = true := by
  apply isTypeLine_iff.mpr
  cases isOpening with
  | named =>
      rw [List.append_assoc]
      exact .inl (List.prefix_append _ _)
  | returned => exact .inr ⟨':' :: rest, rfl⟩

/-- The opening begins and ends with a colon. -/
theorem isCore (isOpening : IsTypeOpening opening) : IsCore isBlank opening opening := by
  have colon : isBlank ':' = false := by decide
  cases isOpening with
  | named =>
      apply isCore_self
      · intro c isFirst
        cases isFirst
        exact colon
      · intro c isLast
        simp only [← List.append_assoc, List.getLast?_concat, Option.mem_def,
          Option.some.injEq] at isLast
        rw [← isLast]
        exact colon
  | returned =>
      apply isCore_self
      · intro c isFirst
        cases isFirst
        exact colon
      · intro c isLast
        cases isLast
        exact colon

theorem ne_nil (isOpening : IsTypeOpening opening) : opening ≠ [] := by
  cases isOpening with
  | named => simp
  | returned => simp

theorem exists_trim (isOpening : IsTypeOpening opening) {lead : List Char}
    (ofLead : ∀ c ∈ lead, isSpaceOrTab c = true) (rest : List Char) :
    ∃ shorter, trim (lead ++ (opening ++ rest)) = opening ++ shorter :=
  exists_trim_append (fun c member => isBlank_of_isSpaceOrTab (ofLead c member))
    isOpening.ne_nil isOpening.isCore rest

end IsTypeOpening

/-- A row is read as a directive about types if it begins like one, indented or not. -/
theorem isMatched_iff {row : List Char} :
    isMatched row = true ↔
      ∃ lead opening rest, (∀ c ∈ lead, isSpaceOrTab c = true) ∧ IsTypeOpening opening ∧
        row = lead ++ (opening ++ rest) := by
  rw [isMatched, Bool.or_eq_true, Option.isSome_iff_exists, Option.isSome_iff_exists]
  simp only [typeOfRow?_eq_some_iff, returnOfRow?_eq_some_iff]
  constructor
  · rintro (⟨-, lead, blanks, name, expr, ofLead, nonempty, ofBlanks, isName, rfl, -⟩ |
      ⟨-, lead, text, ofLead, rfl, -⟩)
    · exact ⟨lead, _, expr, ofLead, .named nonempty ofBlanks isName, by simp⟩
    · exact ⟨lead, _, text, ofLead, .returned, rfl⟩
  · rintro ⟨lead, opening, rest, ofLead, isOpening, rfl⟩
    cases isOpening with
    | @named blanks name nonempty ofBlanks isName =>
        exact .inl ⟨_, lead, blanks, name, rest, ofLead, nonempty, ofBlanks, isName, by simp, rfl⟩
    | returned => exact .inr ⟨_, lead, rest, ofLead, rfl, rfl⟩

/-- No row gives a parameter its type and the type returned, too. -/
theorem returnOfRow?_of_typeOfRow? {row : List Char} (named : (typeOfRow? row).isSome = true) :
    returnOfRow? .rtype row = none := by
  obtain ⟨directive, isFound⟩ := Option.isSome_iff_exists.mp named
  obtain ⟨text, begins, -⟩ := Option.bind_eq_some_iff.mp isFound
  rw [returnOfRow?, after?_eq_some_iff.mp begins]
  rfl

/-- What is read as a directive about types begins like one when it is trimmed. -/
theorem isTypeLine_of_isMatched {row : List Char} (matched : isMatched row = true) :
    Documentation.isTypeLine (trim row) = true := by
  obtain ⟨lead, opening, rest, ofLead, isOpening, rfl⟩ := isMatched_iff.mp matched
  obtain ⟨shorter, trimmed⟩ := isOpening.exists_trim ofLead rest
  rw [trimmed]
  exact isOpening.isTypeLine shorter

/-- Behind spaces and tabs, what begins like a directive about types is read as one. -/
theorem isMatched_iff_of_indent {line : List Char}
    (ofIndent : ∀ c ∈ line.takeWhile isBlank, isSpaceOrTab c = true) :
    isMatched line = true ↔ ∃ opening, IsTypeOpening opening ∧ opening <+: trim line := by
  constructor
  · intro matched
    obtain ⟨lead, opening, rest, ofLead, isOpening, rfl⟩ := isMatched_iff.mp matched
    obtain ⟨shorter, trimmed⟩ := isOpening.exists_trim ofLead rest
    exact ⟨opening, isOpening, shorter, trimmed.symm⟩
  · rintro ⟨opening, isOpening, rest, isText⟩
    obtain ⟨tail, whole⟩ := exists_trim line
    apply isMatched_iff.mpr
    refine ⟨_, opening, rest ++ tail, ofIndent, isOpening, ?_⟩
    rwa [← isText, List.append_assoc] at whole

end Directive

namespace Documentation

open Directive

/-! ## The lines of a description -/

/-- The lines that the description of a text leaves out. -/
def droppedLines (doc : String) : List (List Char) :=
  (lines doc.toList).filter fun line => isTypeLine (trim line)

/-- The lines that the description of a text keeps. -/
def keptLines (doc : String) : List (List Char) :=
  (lines doc.toList).filter fun line => !isTypeLine (trim line)

theorem descriptionLines_eq (doc : String) :
    descriptionLines doc.toList = (keptLines doc).map trim :=
  List.filter_map ..

section

variable {doc : String} {core : List (List Char)}

/-- A row that a description is written in. -/
structure IsDescriptionRow (row : List Char) : Prop where
  trimmed : trim row = row
  inLine : '\n' ∉ row
  noTypeLine : isTypeLine row = false

theorem isDescriptionRow_of_mem {row : List Char} (member : row ∈ descriptionLines doc.toList) :
    IsDescriptionRow row := by
  obtain ⟨isTrimmed, noTypeLine⟩ := List.mem_filter.mp member
  obtain ⟨line, inLines, rfl⟩ := List.mem_map.mp isTrimmed
  constructor
  case trimmed => exact trim_trim line
  case inLine => exact fun feed => feed_not_mem_lines inLines ((isCore_trim line).mem feed)
  case noTypeLine => simpa using noTypeLine

theorem IsDescriptionRow.getLast?_ne {row : List Char} (ofRow : IsDescriptionRow row) :
    row.getLast? ≠ some '\r' := by
  intro ends
  have visible := (trim_eq_iff.mp ofRow.trimmed).ends '\r' ends
  cases visible

variable (isCore : IsCore isBlankText (descriptionLines doc.toList) core)
include isCore

private theorem isDescriptionRow_of_core : ∀ row ∈ core, IsDescriptionRow row :=
  fun _ member => isDescriptionRow_of_mem (isCore.mem member)

theorem description_eq : (description doc).toList = unrows core := by
  rw [description, String.toList_ofList]
  exact trim_unrows_of_isCore isCore fun row member => (isDescriptionRow_of_mem member).trimmed

theorem lines_description : lines (description doc).toList = core := by
  have ofCore := isDescriptionRow_of_core isCore
  rw [description_eq isCore, lines_unrows fun row member => (ofCore row member).inLine]
  apply linesOfRows_eq_self
  · exact fun row member => (ofCore row member).getLast?_ne
  · intro ends
    cases isCore.ends [] ends

/-- What is described has nothing that its description leaves out. -/
theorem descriptionLines_description : descriptionLines (description doc).toList = core := by
  have ofCore := isDescriptionRow_of_core isCore
  rw [descriptionLines, lines_description isCore]
  have unchanged : core.map trim = core :=
    (List.map_congr_left fun row member => (ofCore row member).trimmed).trans (List.map_id' core)
  rw [unchanged]
  apply List.filter_eq_self.mpr
  intro row member
  rw [(ofCore row member).noTypeLine]
  rfl

end

theorem description_description (doc : String) :
    description (description doc) = description doc := by
  obtain ⟨core, isCore⟩ := exists_isCore isBlankText (descriptionLines doc.toList)
  have again : IsCore isBlankText (descriptionLines (description doc).toList) core := by
    rw [descriptionLines_description isCore]
    exact isCore_self isCore.begins isCore.ends
  apply String.toList_inj.mp
  rw [description_eq isCore, description_eq again]

/-! ## Directives in a description -/

theorem isMatched_of_mem_description {doc : String} {row : List Char}
    (member : row ∈ rows (description doc).toList) : isMatched row = false := by
  obtain ⟨core, isCore⟩ := exists_isCore isBlankText (descriptionLines doc.toList)
  rw [description_eq isCore] at member
  by_cases empty : core = []
  · rw [empty] at member
    rw [List.mem_singleton.mp member]
    rfl
  · have ofCore := isDescriptionRow_of_core isCore
    rw [rows_unrows (fun other inside => (ofCore other inside).inLine) empty] at member
    apply Bool.eq_false_iff.mpr
    intro matched
    -- The row would begin like a directive, and such rows are left out.
    have begins := isTypeLine_of_isMatched matched
    rw [(ofCore row member).trimmed, (ofCore row member).noTypeLine] at begins
    cases begins

theorem isMatched_eq_false_iff {row : List Char} :
    isMatched row = false ↔ typeOfRow? row = none ∧ returnOfRow? .rtype row = none := by
  simp [isMatched]

/-- A description has no directive about types. -/
theorem paramTypes_description (doc : String) : paramTypes (description doc) = [] := by
  apply List.filterMap_eq_nil_iff.mpr
  intro row member
  exact (isMatched_eq_false_iff.mp (isMatched_of_mem_description member)).1

theorem rtype_description (doc : String) : rtype (description doc) = .ok none := by
  apply single_eq_ok_iff.mpr
  apply List.filterMap_eq_nil_iff.mpr
  intro row member
  exact (isMatched_eq_false_iff.mp (isMatched_of_mem_description member)).2

/-! ## Where the lines go -/

/-- An item is found by one of two readers that are apart, or by neither. -/
private theorem length_eq_found {α β γ : Type} {first : α → Option β} {second : α → Option γ}
    (apart : ∀ item, (first item).isSome = true → second item = none) (items : List α) :
    items.length = (items.filterMap first).length + (items.filterMap second).length +
      (items.filter fun item => !((first item).isSome || (second item).isSome)).length := by
  induction items with
  | nil => rfl
  | cons item rest inductionHypothesis =>
      rw [List.length_cons]
      cases ofFirst : first item with
      | some found =>
          have ofSecond := apart item (by rw [ofFirst]; rfl)
          rw [List.filterMap_cons_some ofFirst, List.filterMap_cons_none ofSecond,
            List.filter_cons_of_neg (by simp [ofFirst]), List.length_cons]
          omega
      | none =>
          rw [List.filterMap_cons_none ofFirst]
          cases ofSecond : second item with
          | some found =>
              rw [List.filterMap_cons_some ofSecond, List.filter_cons_of_neg (by simp [ofSecond]),
                List.length_cons]
              omega
          | none =>
              rw [List.filterMap_cons_none ofSecond,
                List.filter_cons_of_pos (by simp [ofFirst, ofSecond]), List.length_cons]
              omega

/-- Each line of a text is described, read as a directive about types, or dropped unread. -/
structure AccountsForLines (doc : String) : Prop where
  /-- Only lines that begin like a directive about types are dropped, and all of these are. -/
  dropped : ∀ line, line ∈ droppedLines doc ↔ line ∈ lines doc.toList ∧
    (":type".toList <+: trim line ∨ ":rtype".toList <+: trim line)
  /-- The others are described in order, but for blank lines at either end. -/
  kept : IsCore isBlankText ((keptLines doc).map trim) (lines (description doc).toList)
  /-- The directives about types are those of the lines that are dropped. -/
  paramTypes : paramTypes doc = (droppedLines doc).filterMap typeOfRow?
  returns : returnRows .rtype doc = (droppedLines doc).filterMap (returnOfRow? .rtype)
  /-- Of those that only spaces and tabs indent, the ones read have an opening up to its colon. -/
  matched : ∀ line ∈ droppedLines doc, (∀ c ∈ line.takeWhile isBlank, isSpaceOrTab c = true) →
    (isMatched line = true ↔ ∃ opening, IsTypeOpening opening ∧ opening <+: trim line)
  /-- No line gives two directives. -/
  count : (droppedLines doc).length =
    (Documentation.paramTypes doc).length + (returnRows .rtype doc).length +
      ((droppedLines doc).filter fun line => !isMatched line).length

/-- What is found in the rows of a text is found in the lines that are dropped. -/
private theorem filterMap_droppedLines {β : Type} {read : List Char → Option β}
    (passes : PassesBlanks read)
    (reads : ∀ line, (read line).isSome = true → isMatched line = true) (doc : String) :
    (rows doc.toList).filterMap read = (droppedLines doc).filterMap read := by
  rw [passes.filterMap_rows, droppedLines, List.filterMap_filter]
  apply List.filterMap_congr
  intro line _
  split
  · rfl
  · rename_i kept
    by_contra found
    exact kept (isTypeLine_of_isMatched (reads line (Option.isSome_iff_ne_none.mpr found)))

/-- What a text loses to its description is read as directives, or begins like one. -/
theorem description_accounts (doc : String) : AccountsForLines doc := by
  have namedLines : paramTypes doc = (droppedLines doc).filterMap typeOfRow? :=
    filterMap_droppedLines passesBlanks_typeOfRow? (fun line found => by simp [isMatched, found]) doc
  have returnLines : returnRows .rtype doc = (droppedLines doc).filterMap (returnOfRow? .rtype) :=
    filterMap_droppedLines (passesBlanks_returnOfRow? .rtype)
      (fun line found => by simp [isMatched, found]) doc
  constructor
  case dropped =>
    intro line
    rw [droppedLines, List.mem_filter, isTypeLine_iff]
  case kept =>
    obtain ⟨core, isCore⟩ := exists_isCore isBlankText (descriptionLines doc.toList)
    rw [lines_description isCore, ← descriptionLines_eq]
    exact isCore
  case paramTypes => exact namedLines
  case returns => exact returnLines
  case matched => exact fun line _ => isMatched_iff_of_indent
  case count =>
    rw [namedLines, returnLines]
    exact length_eq_found (fun _ => returnOfRow?_of_typeOfRow?) (droppedLines doc)

/-- A line whose name is not an identifier is dropped, though nothing is read in it. -/
theorem description_drops_unread :
    droppedLines ":type 1abc: int" = [":type 1abc: int".toList] ∧
      isMatched ":type 1abc: int".toList = false ∧
      (droppedLines ":type 1abc: int").length ≠
        (paramTypes ":type 1abc: int").length + (returnRows .rtype ":type 1abc: int").length := by
  decide

end Documentation

end TypeStub
