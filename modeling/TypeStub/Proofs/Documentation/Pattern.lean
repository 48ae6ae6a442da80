import TypeStub.Proofs.Documentation.Directive
import TypeStub.Proofs.Text.RowPattern

/-!
Contract: the directives of a text as matches of patterns that are searched for in the whole text.

Owns:
- the patterns of directives, and what a search for them finds;
- `paramTypes_eq_typeMatches` and `returnRows_eq_returnMatches`: the search finds what the rows of
  the text say.

Does not own: what a row has to look like to be a directive
(`TypeStub.Proofs.Documentation.Directive`).
-/

namespace TypeStub

open Text

/-! ## Patterns -/

namespace Directive

def sayingPattern : RowPattern :=
  [(none, .many isSpaceOrTab), (some .said, .few (· != '\n')), (none, .many isRowEnd),
    (none, .rowEnd)]

def namedPattern : RowPattern :=
  [(none, .one isSpaceOrTab), (none, .many isSpaceOrTab), (some .name, .one isNameStart),
    (some .name, .many isNamePart)] ++ RowPattern.literal ":".toList ++ sayingPattern

/-- A row that begins with the marker, which may be indented. -/
def markedPattern (marker : String) (pattern : RowPattern) : RowPattern :=
  [(none, .rowStart), (none, .many isSpaceOrTab)] ++ RowPattern.literal marker.toList ++ pattern

def typePattern : RowPattern :=
  markedPattern ":type" namedPattern

def returnPattern (kind : ReturnDirective) : RowPattern :=
  markedPattern kind.marker sayingPattern

end Directive

namespace Documentation

/-- The type directives that a search through the text finds. -/
def typeMatches (doc : String) : List TypeDirective :=
  (Directive.typePattern.matchesIn doc.toList).map fun captures =>
    ⟨String.ofList captures.name, String.ofList captures.said⟩

/-- What the rows of one kind say that a search through the text finds. -/
def returnMatches (kind : ReturnDirective) (doc : String) : List String :=
  ((Directive.returnPattern kind).matchesIn doc.toList).map fun captures =>
    String.ofList captures.said

end Documentation

/-! ## What the patterns find in a row -/

namespace Directive

open RowPattern

variable {pattern : RowPattern} {read : List Char → Option Captures}

theorem fills_literal {marker : List Char} (noFeed : '\n' ∉ marker)
    (fills : Fills (first? pattern) read) :
    Fills (first? (literal marker ++ pattern)) fun row =>
      (Directive.after? marker row).bind read := by
  induction marker with
  | nil => simpa [literal, Directive.after?] using fills
  | cons expected marker inductionHypothesis =>
      have stays : (expected == '\n') = false := by
        rw [beq_eq_false_iff_ne]
        exact (List.ne_of_not_mem_cons noFeed).symm
      refine (fills_one stays
        (inductionHypothesis (List.not_mem_of_not_mem_cons noFeed))).congr ?_
      intro row _
      cases row with
      | nil => rfl
      | cons c row =>
          by_cases isExpected : expected = c
          · have same : Captures.add c none = id := rfl
            simp [readOne, Directive.after?, isExpected, same]
          · simp [readOne, Directive.after?, isExpected]

theorem fills_rowEnding :
    Fills (first? [(none, .many isRowEnd), (none, .rowEnd)]) fun row =>
      if row.all isRowEnd then some ⟨[], []⟩ else none := by
  refine (fills_many (by decide) fills_rowEnd ?_).congr ?_
  · intro row nothing
    cases row with
    | nil => exact nothing
    | cons c row => rfl
  · intro row _
    simp [readMany_none, List.isEmpty_iff, List.dropWhile_eq_nil_iff]

/-- The blanks at the end of a row are no part of what its directive says. -/
theorem fills_said :
    Fills (first? [(some .said, .few (· != '\n')), (none, .many isRowEnd), (none, .rowEnd)])
      fun row => some ⟨[], trimEndBy isRowEnd row⟩ := by
  refine (fills_few (by decide) fills_rowEnding).congr ?_
  intro row free
  induction row with
  | nil => rfl
  | cons c row inductionHypothesis =>
      have stays : c ≠ '\n' := (List.ne_of_not_mem_cons free).symm
      -- Nothing is said where only blanks are left, and one character more where others are.
      rw [readFew, inductionHypothesis (List.not_mem_of_not_mem_cons free), trimEndBy_cons]
      by_cases blank : (c :: row).all isRowEnd = true
      · simp only [blank, if_true, Option.some_or]
      · simp only [blank]
        simp [stays, Captures.add]

theorem fills_saying : Fills (first? sayingPattern) fun row => some ⟨[], payload row⟩ := by
  refine (fills_many (by decide) fills_said (by simp)).congr ?_
  intro row _
  rw [readMany_none]
  rfl

theorem fills_namePart :
    Fills (first? ((some .name, .many isNamePart) :: (literal ":".toList ++ sayingPattern)))
      fun row =>
        match row.dropWhile isNamePart with
        | ':' :: expr => some ⟨row.takeWhile isNamePart, payload expr⟩
        | _ => none := by
  refine (fills_many_of_refuses (by decide) (fills_literal (by decide) fills_saying) ?_).congr ?_
  · intro c row ofName
    have other : ':' ≠ c := by
      rintro rfl
      cases ofName
    simp [after?, other]
  · intro row _
    rw [readMany_name]
    cases row.dropWhile isNamePart with
    | nil => rfl
    | cons c expr =>
        by_cases isColon : c = ':'
        · simp [after?, isColon]
        · simp [after?, isColon, Ne.symm isColon]

theorem fills_name :
    Fills (first? ((some .name, .one isNameStart) :: (some .name, .many isNamePart) ::
        (literal ":".toList ++ sayingPattern))) fun row =>
      if row.head?.any isNameStart then
        match row.dropWhile isNamePart with
        | ':' :: expr => some ⟨row.takeWhile isNamePart, payload expr⟩
        | _ => none
      else none := by
  refine (fills_one (by decide) fills_namePart).congr ?_
  intro row _
  cases row with
  | nil => rfl
  | cons first rest =>
      cases start : isNameStart first with
      | false => simp [readOne, start]
      | true =>
          have part := isNamePart_of_isNameStart start
          simp only [readOne, start, List.dropWhile_cons_of_pos part,
            List.takeWhile_cons_of_pos part, List.head?_cons, Option.any_some, if_true]
          cases rest.dropWhile isNamePart with
          | nil => rfl
          | cons last expr =>
              by_cases isColon : last = ':'
              · simp [isColon, Captures.add]
              · simp [isColon]

theorem fills_named : Fills (first? namedPattern) fun row =>
    (namedType? row).map fun directive => ⟨directive.name.toList, directive.expr.toList⟩ := by
  refine (fills_one (by decide) (fills_many_of_refuses (by decide) fills_name ?_)).congr ?_
  · intro c row blank
    have notStart : ¬ isNameStart c = true := by
      intro start
      rw [not_isSpaceOrTab_of_isNameStart start] at blank
      cases blank
    simp [notStart]
  · intro row _
    cases row with
    | nil => rfl
    | cons c row =>
        rw [readOne, readMany_none, namedType?]
        cases blank : isSpaceOrTab c with
        | false => simp [blank]
        | true =>
            simp only [List.dropWhile_cons_of_pos blank, List.head?_cons, Option.any_some, blank,
              if_true]
            by_cases start : (row.dropWhile isSpaceOrTab).head?.any isNameStart = true
            · simp only [start, if_true]
              cases (row.dropWhile isSpaceOrTab).dropWhile isNamePart with
              | nil => rfl
              | cons last expr =>
                  by_cases isColon : last = ':'
                  · simp [isColon, Captures.add]
                  · simp [isColon]
            · simp [start]

/-- A marker is looked for behind the blanks at the start of each row. -/
theorem matchesIn_markedPattern (marker : String) (colon : marker.toList.head? = some ':')
    (noFeed : '\n' ∉ marker.toList) (fills : Fills (first? pattern) read) (text : List Char) :
    (markedPattern marker pattern).matchesIn text =
      (rows text).filterMap fun row =>
        (after? marker.toList (row.dropWhile isSpaceOrTab)).bind read := by
  refine matchesIn_eq_rows ((fills_many_of_refuses (by decide) (fills_literal noFeed fills)
    ?_).congr fun row _ => readMany_none row) text
  intro c row blank
  obtain ⟨word, isMarker⟩ := List.head?_eq_some_iff.mp colon
  have other : ':' ≠ c := by
    rintro rfl
    cases blank
  rw [isMarker, after?, if_neg other]
  rfl

end Directive

namespace Documentation

/-- Searching the whole text for type directives finds those of its rows. -/
theorem paramTypes_eq_typeMatches (doc : String) : paramTypes doc = typeMatches doc := by
  rw [typeMatches, Directive.typePattern, Directive.matchesIn_markedPattern ":type" rfl (by decide)
    Directive.fills_named, List.map_filterMap, paramTypes]
  apply List.filterMap_congr
  intro row _
  rw [Directive.typeOfRow?]
  cases Directive.after? ":type".toList (row.dropWhile isSpaceOrTab) with
  | none => rfl
  | some rest => cases found : Directive.namedType? rest <;> simp [found]

example : typeMatches ":type a:\n :type b: str \r\nx :type c: int" =
    [⟨"a", ""⟩, ⟨"b", "str"⟩] := by
  decide +kernel

theorem returnRows_eq_returnMatches (kind : ReturnDirective) (doc : String) :
    returnRows kind doc = returnMatches kind doc := by
  have colon : kind.marker.toList.head? = some ':' := by cases kind <;> rfl
  have noFeed : '\n' ∉ kind.marker.toList := by cases kind <;> decide
  rw [returnMatches, Directive.returnPattern, Directive.matchesIn_markedPattern _ colon noFeed
    Directive.fills_saying, List.map_filterMap, returnRows]
  apply List.filterMap_congr
  intro row _
  rw [Directive.returnOfRow?]
  cases Directive.after? kind.marker.toList (row.dropWhile isSpaceOrTab) <;> rfl

end Documentation

end TypeStub
