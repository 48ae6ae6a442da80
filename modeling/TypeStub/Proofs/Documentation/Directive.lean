import Mathlib.Data.List.TakeWhile
import TypeStub.Documentation
import TypeStub.Proofs.Text.Line

/-!
Contract: which rows are directives, and when a text divides into its parts.

Owns:
- `Directive.IsName`, the names that a type directive can give a type to;
- the written form of the rows that are directives, in both directions;
- `PassesBlanks`, the blanks at the ends of a row that its readers pass over;
- `split_eq_ok_iff` and `split_eq_error_iff`, the parts of a text by its rows, and which rows are
  reported when some occur several times.
-/

namespace TypeStub

open Text

/-! ## Rows -/

namespace Directive

/-- A letter or underscore, then letters, digits and underscores. -/
def IsName (name : List Char) : Prop :=
  name.head?.any isNameStart = true ∧ ∀ c ∈ name, isNamePart c = true

theorem after?_eq_some_iff {marker text rest : List Char} :
    after? marker text = some rest ↔ text = marker ++ rest := by
  induction marker generalizing text with
  | nil => simp [after?]
  | cons expected marker inductionHypothesis =>
      cases text with
      | nil => simp [after?]
      | cons c text =>
          by_cases same : expected = c
          · simp [after?, same, inductionHypothesis]
          · simp [after?, same, Ne.symm same]

theorem not_isSpaceOrTab_of_isNameStart {c : Char} (start : isNameStart c = true) :
    isSpaceOrTab c = false := by
  cases blank : isSpaceOrTab c with
  | false => rfl
  | true =>
      rw [isSpaceOrTab, Bool.or_eq_true, beq_iff_eq, beq_iff_eq] at blank
      rcases blank with rfl | rfl <;> cases start

theorem isNamePart_of_isNameStart {c : Char} (start : isNameStart c = true) :
    isNamePart c = true := by
  rw [isNameStart, Bool.or_eq_true] at start
  rw [isNamePart, Char.isAlphanum, Bool.or_eq_true, Bool.or_eq_true]
  exact start.imp_left .inl

/-- Blanks do not reach into what begins with another character. -/
theorem dropWhile_blanks {blanks text : List Char} (ofBlanks : ∀ c ∈ blanks, isSpaceOrTab c = true)
    (begins : ∀ c, text.head? = some c → isSpaceOrTab c = false) :
    (blanks ++ text).dropWhile isSpaceOrTab = text := by
  rw [List.dropWhile_append_of_pos ofBlanks]
  exact dropWhile_of_begins begins

theorem namedType?_written {blanks name expr : List Char} (nonempty : blanks ≠ [])
    (ofBlanks : ∀ c ∈ blanks, isSpaceOrTab c = true) (isName : IsName name) :
    namedType? (blanks ++ (name ++ ':' :: expr)) =
      some ⟨String.ofList name, String.ofList (payload expr)⟩ := by
  obtain ⟨blank, moreBlanks, rfl⟩ := List.exists_cons_of_ne_nil nonempty
  have ofBlank : isSpaceOrTab blank = true := ofBlanks blank List.mem_cons_self
  have starts : (name ++ ':' :: expr).head?.any isNameStart = true := by
    cases name with
    | nil => cases isName.1
    | cons c rest => simpa using isName.1
  have named : (blank :: moreBlanks ++ (name ++ ':' :: expr)).dropWhile isSpaceOrTab =
      name ++ ':' :: expr := by
    refine dropWhile_blanks ofBlanks ?_
    intro c isHead
    rw [isHead] at starts
    exact not_isSpaceOrTab_of_isNameStart starts
  have taken : (name ++ ':' :: expr).takeWhile isNamePart = name := by
    rw [List.takeWhile_append_of_pos isName.2, List.takeWhile_cons_of_neg (by decide),
      List.append_nil]
  have left : (name ++ ':' :: expr).dropWhile isNamePart = ':' :: expr := by
    rw [List.dropWhile_append_of_pos isName.2, List.dropWhile_cons_of_neg (by decide)]
  simp only [namedType?, named, taken, left, starts, if_true]
  simp [ofBlank]

/-- A row after `:type` is a directive exactly if blanks, a name and a colon follow. -/
theorem namedType?_eq_some_iff {text : List Char} {directive : TypeDirective} :
    namedType? text = some directive ↔
      ∃ blanks name expr, blanks ≠ [] ∧ (∀ c ∈ blanks, isSpaceOrTab c = true) ∧ IsName name ∧
        text = blanks ++ (name ++ ':' :: expr) ∧
        directive = ⟨String.ofList name, String.ofList (payload expr)⟩ := by
  constructor
  · intro found
    simp only [namedType?, Option.ite_none_right_eq_some] at found
    obtain ⟨begins, starts, found⟩ := found
    split at found
    · rename_i expr left
      refine ⟨text.takeWhile isSpaceOrTab, (text.dropWhile isSpaceOrTab).takeWhile isNamePart,
        expr, ?_, fun c => List.mem_takeWhile_imp, ⟨?_, fun c => List.mem_takeWhile_imp⟩, ?_,
        (Option.some.inj found).symm⟩
      · cases text with
        | nil => cases begins
        | cons c rest =>
            have isBlank : isSpaceOrTab c = true := begins
            simp [List.takeWhile_cons_of_pos isBlank]
      · cases named : text.dropWhile isSpaceOrTab with
        | nil =>
            rw [named] at starts
            cases starts
        | cons c rest =>
            rw [named] at starts
            have isStart : isNameStart c = true := starts
            simp [List.takeWhile_cons_of_pos (isNamePart_of_isNameStart isStart), isStart]
      · rw [← left, List.takeWhile_append_dropWhile, List.takeWhile_append_dropWhile]
    · cases found
  · rintro ⟨blanks, name, expr, nonempty, ofBlanks, isName, rfl, rfl⟩
    exact namedType?_written nonempty ofBlanks isName

/-- The name in a type directive is an identifier. -/
theorem isName_of_typeOfRow? {row : List Char} {directive : TypeDirective}
    (found : typeOfRow? row = some directive) : IsName directive.name.toList := by
  obtain ⟨text, -, isDirective⟩ := Option.bind_eq_some_iff.mp found
  obtain ⟨blanks, name, expr, -, -, isName, -, rfl⟩ := namedType?_eq_some_iff.mp isDirective
  rwa [String.toList_ofList]

/-! ### The written form of a row -/

theorem isBlank_of_isSpaceOrTab {c : Char} (blank : isSpaceOrTab c = true) :
    isBlank c = true := by
  rw [isSpaceOrTab, Bool.or_eq_true, beq_iff_eq, beq_iff_eq] at blank
  rcases blank with rfl | rfl <;> decide

theorem isBlank_of_isRowEnd {c : Char} (blank : isRowEnd c = true) : isBlank c = true := by
  rw [isRowEnd, Bool.or_eq_true, beq_iff_eq] at blank
  rcases blank with inLine | rfl
  · exact isBlank_of_isSpaceOrTab inLine
  · decide

theorem dropWhile_eq_iff {row rest : List Char}
    (begins : ∀ c, rest.head? = some c → isSpaceOrTab c = false) :
    row.dropWhile isSpaceOrTab = rest ↔
      ∃ lead, (∀ c ∈ lead, isSpaceOrTab c = true) ∧ row = lead ++ rest := by
  constructor
  · rintro rfl
    exact ⟨row.takeWhile isSpaceOrTab, fun c => List.mem_takeWhile_imp,
      List.takeWhile_append_dropWhile.symm⟩
  · rintro ⟨lead, ofLead, rfl⟩
    exact dropWhile_blanks ofLead begins

/-- A type directive may be indented, and says what stands behind the colon after its name. -/
theorem typeOfRow?_eq_some_iff {row : List Char} {directive : TypeDirective} :
    typeOfRow? row = some directive ↔
      ∃ lead blanks name expr, (∀ c ∈ lead, isSpaceOrTab c = true) ∧ blanks ≠ [] ∧
        (∀ c ∈ blanks, isSpaceOrTab c = true) ∧ IsName name ∧
        row = lead ++ (":type".toList ++ (blanks ++ (name ++ ':' :: expr))) ∧
        directive = ⟨String.ofList name, String.ofList (payload expr)⟩ := by
  simp only [typeOfRow?, Option.bind_eq_some_iff, after?_eq_some_iff, namedType?_eq_some_iff]
  have begins : ∀ text c, (":type".toList ++ text).head? = some c → isSpaceOrTab c = false := by
    intro text c isHead
    cases isHead
    decide
  constructor
  · rintro ⟨text, isRow, blanks, name, expr, nonempty, ofBlanks, isName, rfl, rfl⟩
    obtain ⟨lead, ofLead, written⟩ := (dropWhile_eq_iff (begins _)).mp isRow
    exact ⟨lead, blanks, name, expr, ofLead, nonempty, ofBlanks, isName, written, rfl⟩
  · rintro ⟨lead, blanks, name, expr, ofLead, nonempty, ofBlanks, isName, written, rfl⟩
    exact ⟨_, (dropWhile_eq_iff (begins _)).mpr ⟨lead, ofLead, written⟩, blanks, name, expr,
      nonempty, ofBlanks, isName, rfl, rfl⟩

theorem returnOfRow?_eq_some_iff {kind : ReturnDirective} {row : List Char} {said : String} :
    returnOfRow? kind row = some said ↔
      ∃ lead text, (∀ c ∈ lead, isSpaceOrTab c = true) ∧
        row = lead ++ (kind.marker.toList ++ text) ∧ said = String.ofList (payload text) := by
  simp only [returnOfRow?, Option.map_eq_some_iff, after?_eq_some_iff]
  have begins : ∀ text c, (kind.marker.toList ++ text).head? = some c →
      isSpaceOrTab c = false := by
    intro text c isHead
    cases kind <;> cases isHead <;> decide
  constructor
  · rintro ⟨text, isRow, rfl⟩
    obtain ⟨lead, ofLead, written⟩ := (dropWhile_eq_iff (begins _)).mp isRow
    exact ⟨lead, text, ofLead, written, rfl⟩
  · rintro ⟨lead, text, ofLead, written, rfl⟩
    exact ⟨text, (dropWhile_eq_iff (begins _)).mpr ⟨lead, ofLead, written⟩, rfl⟩

/-! ### What is not read -/

/-- The reader passes over blanks at either end of a row, and finds nothing where no colon is. -/
structure PassesBlanks {β : Type} (read : List Char → Option β) : Prop where
  uncoloned : ∀ row, ':' ∉ row → read row = none
  front : ∀ blanks row, (∀ c ∈ blanks, isSpaceOrTab c = true) → read (blanks ++ row) = read row
  back : ∀ row ending, (∀ c ∈ ending, isRowEnd c = true) → read (row ++ ending) = read row

theorem payload_append {ending : List Char} (ofEnding : ∀ c ∈ ending, isRowEnd c = true)
    (text : List Char) : payload (text ++ ending) = payload text := by
  have ofReverse : ∀ c ∈ ending.reverse, isRowEnd c = true :=
    fun c member => ofEnding c (List.mem_reverse.mp member)
  unfold payload trimEndBy
  rw [List.dropWhile_append]
  split
  · rename_i empty
    have rest : (ending.dropWhile isSpaceOrTab).reverse.dropWhile isRowEnd = [] := by
      apply List.dropWhile_eq_nil_iff.mpr
      intro c member
      exact ofEnding c ((List.dropWhile_sublist _).subset (List.mem_reverse.mp member))
    rw [rest, List.isEmpty_iff.mp empty]
    rfl
  · rw [List.reverse_append, List.dropWhile_append_of_pos ofReverse]

/-- Where a colon ends what comes first, blanks at the end are behind it. -/
theorem exists_behind_colon {row ending front rest : List Char} (noColon : ':' ∉ ending)
    (same : row ++ ending = front ++ ':' :: rest) :
    ∃ shorter, row = front ++ ':' :: shorter ∧ rest = shorter ++ ending := by
  rcases List.append_eq_append_iff.mp same with ⟨between, -, isEnding⟩ | ⟨behind, isRow, isRest⟩
  · exact absurd (by simp [isEnding]) noColon
  · cases behind with
    | nil =>
        have isEnding : ending = ':' :: rest := isRest.symm
        exact absurd (by simp [isEnding]) noColon
    | cons c shorter =>
        obtain ⟨rfl, isShorter⟩ := List.cons.inj isRest
        exact ⟨shorter, isRow, isShorter⟩

theorem colon_not_mem_of_blank {text : List Char} (blank : ∀ c ∈ text, isBlank c = true) :
    ':' ∉ text := fun member => absurd (blank ':' member) (by decide)

/-- What is found by the text before a colon and by the payload behind it does not depend on
blanks at the end of the row. -/
private theorem passesBlanks_of_reads {β : Type} {read : List Char → Option β}
    (gives : List Char → List Char → β → Prop)
    (front : ∀ blanks row, (∀ c ∈ blanks, isSpaceOrTab c = true) → read (blanks ++ row) = read row)
    (reads : ∀ row found, read row = some found ↔
      ∃ front rest, row = front ++ ':' :: rest ∧ gives front (payload rest) found) :
    PassesBlanks read where
  uncoloned row noColon := by
    apply Option.eq_none_iff_forall_ne_some.mpr
    intro found isFound
    obtain ⟨front, rest, rfl, -⟩ := (reads row found).mp isFound
    simp at noColon
  front := front
  back row ending ofEnding := by
    have noColon := colon_not_mem_of_blank fun c member => isBlank_of_isRowEnd (ofEnding c member)
    apply Option.ext
    intro found
    rw [reads, reads]
    constructor
    · rintro ⟨front, rest, written, given⟩
      -- The ending has no colon, so the colon that the row is read at stands before it.
      obtain ⟨shorter, isRow, rfl⟩ := exists_behind_colon noColon written
      rw [payload_append ofEnding] at given
      exact ⟨front, shorter, isRow, given⟩
    · rintro ⟨front, rest, rfl, given⟩
      refine ⟨front, rest ++ ending, by simp, ?_⟩
      rwa [payload_append ofEnding]

theorem passesBlanks_typeOfRow? : PassesBlanks typeOfRow? := by
  refine passesBlanks_of_reads (fun front said directive =>
    ∃ lead blanks name, (∀ c ∈ lead, isSpaceOrTab c = true) ∧ blanks ≠ [] ∧
      (∀ c ∈ blanks, isSpaceOrTab c = true) ∧ IsName name ∧
      front = lead ++ (":type".toList ++ (blanks ++ name)) ∧
      directive = ⟨String.ofList name, String.ofList said⟩) ?_ ?_
  · intro blanks row ofBlanks
    unfold typeOfRow?
    rw [List.dropWhile_append_of_pos ofBlanks]
  · intro row directive
    rw [typeOfRow?_eq_some_iff]
    constructor
    · rintro ⟨lead, blanks, name, expr, ofLead, nonempty, ofBlanks, isName, rfl, rfl⟩
      exact ⟨_, expr, by simp, lead, blanks, name, ofLead, nonempty, ofBlanks, isName, rfl, rfl⟩
    · rintro ⟨_, expr, rfl, lead, blanks, name, ofLead, nonempty, ofBlanks, isName, rfl, rfl⟩
      exact ⟨lead, blanks, name, expr, ofLead, nonempty, ofBlanks, isName, by simp, rfl⟩

theorem passesBlanks_returnOfRow? (kind : ReturnDirective) :
    PassesBlanks (returnOfRow? kind) := by
  have isMarker : ∃ word, kind.marker.toList = word ++ [':'] := by
    cases kind
    · exact ⟨":rtype".toList, rfl⟩
    · exact ⟨":return".toList, rfl⟩
  obtain ⟨word, isMarker⟩ := isMarker
  refine passesBlanks_of_reads (fun front said found =>
    ∃ lead, (∀ c ∈ lead, isSpaceOrTab c = true) ∧ front = lead ++ word ∧
      found = String.ofList said) ?_ ?_
  · intro blanks row ofBlanks
    unfold returnOfRow?
    rw [List.dropWhile_append_of_pos ofBlanks]
  · intro row found
    rw [returnOfRow?_eq_some_iff, isMarker]
    constructor
    · rintro ⟨lead, text, ofLead, rfl, rfl⟩
      exact ⟨_, text, by simp, lead, ofLead, rfl, rfl⟩
    · rintro ⟨_, text, rfl, lead, ofLead, rfl, rfl⟩
      exact ⟨lead, text, ofLead, by simp, rfl⟩

section

variable {β : Type} {read : List Char → Option β}

theorem PassesBlanks.blank (passes : PassesBlanks read) {row : List Char}
    (blank : isBlankText row = true) : read row = none :=
  passes.uncoloned row (colon_not_mem_of_blank (isBlankText_iff.mp blank))

theorem PassesBlanks.returns (passes : PassesBlanks read) {ending : List Char}
    (ofReturns : ∀ c ∈ ending, c = '\r') (row : List Char) : read (row ++ ending) = read row := by
  apply passes.back
  intro c member
  rw [ofReturns c member]
  decide

/-- What is found in the rows of a text is found in its lines. -/
theorem PassesBlanks.filterMap_linesOfRows (passes : PassesBlanks read)
    (all : List (List Char)) : (linesOfRows all).filterMap read = all.filterMap read := by
  apply Text.filterMap_linesOfRows (passes.blank rfl)
  intro row
  obtain ⟨ending, whole, ofEnding⟩ := exists_return row
  exact (passes.returns ofEnding (dropFinalReturn row)).symm.trans (congrArg read whole.symm)

theorem PassesBlanks.filterMap_rows (passes : PassesBlanks read) (text : List Char) :
    (rows text).filterMap read = (lines text).filterMap read :=
  (passes.filterMap_linesOfRows (rows text)).symm

end

end Directive

/-! ## Texts -/

namespace Documentation

/-- One row of a kind may occur, and it is what is found. -/
theorem single_eq_ok_iff {kind : ReturnDirective} {doc : String} {found : Option String} :
    single kind doc = .ok found ↔ returnRows kind doc = found.toList := by
  unfold single
  match returnRows kind doc with
  | [] => cases found <;> simp
  | [only] => cases found <;> simp
  | first :: second :: others => cases found <;> simp

theorem single_eq_error_iff {kind : ReturnDirective} {doc : String}
    {ambiguity : AmbiguousReturn} :
    single kind doc = .error ambiguity ↔
      1 < (returnRows kind doc).length ∧ ⟨kind, (returnRows kind doc).length⟩ = ambiguity := by
  unfold single
  match returnRows kind doc with
  | [] => simp
  | [only] => simp
  | first :: second :: others => simp

theorem exists_single_iff {kind : ReturnDirective} {doc : String} :
    (∃ found, single kind doc = .ok found) ↔ (returnRows kind doc).length ≤ 1 := by
  unfold single
  match returnRows kind doc with
  | [] => simp
  | [only] => simp
  | first :: second :: others => simp

/-- A text divides into the parts that its rows say, if no row about the value returned
occurs twice. -/
theorem split_eq_ok_iff {doc : String} {parts : Parts} :
    split doc = .ok parts ↔
      parts.description = description doc ∧ parts.paramTypes = paramTypes doc ∧
        returnRows .rtype doc = parts.rtype.toList ∧
        returnRows .returns doc = parts.returnDoc.toList := by
  rw [← single_eq_ok_iff, ← single_eq_ok_iff, split, rtype, returnDoc]
  obtain ⟨text, types, type, said⟩ := parts
  cases single .rtype doc with
  | error ambiguity => simp
  | ok foundType =>
      cases single .returns doc with
      | error ambiguity => simp
      | ok foundText =>
          simp only [Except.ok.injEq, Parts.mk.injEq]
          constructor
          · rintro ⟨rfl, rfl, rfl, rfl⟩
            exact ⟨rfl, rfl, rfl, rfl⟩
          · rintro ⟨rfl, rfl, rfl, rfl⟩
            exact ⟨rfl, rfl, rfl, rfl⟩

/-- No kind of row about the value returned occurs twice. -/
def Unambiguous (doc : String) : Prop :=
  ∀ kind, (returnRows kind doc).length ≤ 1

theorem exists_split_iff {doc : String} :
    (∃ parts, split doc = .ok parts) ↔ Unambiguous doc := by
  constructor
  · rintro ⟨parts, divided⟩ kind
    obtain ⟨-, -, types, texts⟩ := split_eq_ok_iff.mp divided
    cases kind with
    | rtype => exact exists_single_iff.mp ⟨_, single_eq_ok_iff.mpr types⟩
    | returns => exact exists_single_iff.mp ⟨_, single_eq_ok_iff.mpr texts⟩
  · intro unambiguous
    obtain ⟨type, ofType⟩ := exists_single_iff.mpr (unambiguous .rtype)
    obtain ⟨text, ofText⟩ := exists_single_iff.mpr (unambiguous .returns)
    exact ⟨⟨description doc, paramTypes doc, type, text⟩, split_eq_ok_iff.mpr
      ⟨rfl, rfl, single_eq_ok_iff.mp ofType, single_eq_ok_iff.mp ofText⟩⟩

theorem split_empty : split "" = .ok ⟨"", [], none, none⟩ := by
  decide

/-- Of two kinds of rows that occur several times, the types are reported. -/
theorem split_eq_error_iff {doc : String} {ambiguity : AmbiguousReturn} :
    split doc = .error ambiguity ↔
      single .rtype doc = .error ambiguity ∨
        (∃ type, single .rtype doc = .ok type) ∧ single .returns doc = .error ambiguity := by
  unfold split rtype returnDoc
  cases single .rtype doc with
  | error other => simp
  | ok type => cases single .returns doc <;> simp

end Documentation

end TypeStub
