import TypeStub.Proofs.Documentation.Description
import TypeStub.Proofs.Documentation.Margin

/-!
Contract: dedenting changes nothing that is read in a text.

Owns: that a dedented text has the description of the text with its tabs expanded and, if its
white space is all spaces, tabs and line feeds, the same directives.

A directive may be indented by spaces and tabs only. So without the condition on white space,
dedenting can bring out a directive.
-/

namespace TypeStub.Documentation

open Text
open Directive (PassesBlanks)

/-! ## Descriptions -/

private theorem trim_unrows_filter {all kept : List (List Char)}
    (isCore : IsCore isBlankText all kept) (keep : List Char → Bool) :
    trim (unrows (all.filter keep)) = trim (unrows (kept.filter keep)) := by
  obtain ⟨front, back, rfl, ofFront, ofBack⟩ := isCore.between
  rw [List.filter_append, List.filter_append]
  apply trim_unrows_pad
  · exact fun row member => ofFront row (List.mem_filter.mp member).1
  · exact fun row member => ofBack row (List.mem_filter.mp member).1

theorem description_dedent (raw : String) :
    description (dedent raw) = description (String.ofList (expandTabs raw.toList)) := by
  unfold description descriptionLines
  rw [String.toList_ofList, trim_unrows_filter (isCore_trim_dedent raw)]

/-! ## Directives -/

/-- The only white space in the text is spaces, tabs and line feeds. -/
def IsPlainlySpaced (text : List Char) : Prop :=
  ∀ c ∈ text, isBlank c = true → c = ' ' ∨ c = '\t' ∨ c = '\n'

instance (text : List Char) : Decidable (IsPlainlySpaced text) :=
  List.decidableBAll (fun c => isBlank c = true → c = ' ' ∨ c = '\t' ∨ c = '\n') text

variable {text : List Char}

theorem IsPlainlySpaced.isSpaceOrTab (spaced : IsPlainlySpaced text) {line : List Char}
    (inLines : line ∈ lines (expandTabs text)) {c : Char} (member : c ∈ line)
    (blank : isBlank c = true) : isSpaceOrTab c = true := by
  rcases mem_expandTabs (mem_of_mem_lines inLines member) with rfl | ⟨inText, -⟩
  · rfl
  · rcases spaced c inText blank with rfl | rfl | rfl
    · rfl
    · rfl
    · exact absurd member (feed_not_mem_lines inLines)

/-- What is read of a line is read of the row that it becomes. -/
private theorem read_dedents {β : Type} {read : List Char → Option β} (passes : PassesBlanks read)
    {all rows : List (List Char)} (dedents : Dedents all rows)
    (spaced : ∀ line ∈ all, ∀ c ∈ line, isBlank c = true → isSpaceOrTab c = true) :
    rows.map read = all.map read := by
  have passesIndent : ∀ indent row, indent ++ row ∈ all → isBlankText indent = true →
      read (indent ++ row) = read row := by
    intro indent row member ofIndent
    apply passes.front
    intro c inIndent
    exact spaced _ member c (List.mem_append_left _ inIndent) (isBlankText_iff.mp ofIndent c inIndent)
  apply dedents.map_eq
  · exact fun indent row member ofIndent => (passesIndent indent row member ofIndent).symm
  · intro width line member row loses
    cases loses with
    | visible isVisible ofWidth ofIndent ofReturns ends =>
        rw [passesIndent _ _ member ofIndent, passes.returns ofReturns]
    | blank blankLine inside =>
        rw [passes.blank blankLine, passes.blank (isBlankText_of_isInfix blankLine inside)]

/-- Nothing is found in blank rows at either end. -/
private theorem filterMap_isCore {β : Type} {read : List Char → Option β}
    (passes : PassesBlanks read) {all kept : List (List Char)}
    (isCore : IsCore isBlankText all kept) : kept.filterMap read = all.filterMap read := by
  obtain ⟨front, back, rfl, ofFront, ofBack⟩ := isCore.between
  have nothing : ∀ blank : List (List Char), (∀ row ∈ blank, isBlankText row = true) →
      blank.filterMap read = [] := by
    intro blank ofBlank
    apply List.filterMap_eq_nil_iff.mpr
    exact fun row member => passes.blank (ofBlank row member)
  rw [List.filterMap_append, List.filterMap_append, nothing front ofFront, nothing back ofBack,
    List.nil_append, List.append_nil]

theorem filterMap_rows_dedent {β : Type} {read : List Char → Option β}
    (passes : PassesBlanks read) {raw : String} (spaced : IsPlainlySpaced raw.toList) :
    (rows (dedent raw).toList).filterMap read =
      (rows (String.ofList (expandTabs raw.toList)).toList).filterMap read := by
  obtain ⟨written, dedents, isCore, -, again⟩ := exists_dedents_text (expandTabs raw.toList)
  have sameLines : written.map read = (lines (expandTabs raw.toList)).map read :=
    read_dedents passes dedents fun line member c => spaced.isSpaceOrTab member
  have sameFound : written.filterMap read = (lines (expandTabs raw.toList)).filterMap read := by
    calc
      written.filterMap read = (written.map read).filterMap id := by
        rw [List.filterMap_map, Function.id_comp]
      _ = ((lines (expandTabs raw.toList)).map read).filterMap id := by rw [sameLines]
      _ = (lines (expandTabs raw.toList)).filterMap read := by
        rw [List.filterMap_map, Function.id_comp]
  -- Both texts are read line by line. The lines of the dedented one are the core of `written`.
  rw [passes.filterMap_rows, passes.filterMap_rows, String.toList_ofList, dedent,
    String.toList_ofList, again, passes.filterMap_linesOfRows, filterMap_isCore passes isCore,
    sameFound]

/-- What is read in a text is read in it when it is dedented. The tabs that are expanded on the
other side are nothing but spaces, by `expandTabs_eq_intercalate`. -/
theorem dedent_reads_alike (raw : String) :
    description (dedent raw) = description (String.ofList (expandTabs raw.toList)) ∧
      (IsPlainlySpaced raw.toList →
        paramTypes (dedent raw) = paramTypes (String.ofList (expandTabs raw.toList)) ∧
          rtype (dedent raw) = rtype (String.ofList (expandTabs raw.toList)) ∧
          returnDoc (dedent raw) = returnDoc (String.ofList (expandTabs raw.toList))) := by
  refine ⟨description_dedent raw, ?_⟩
  intro spaced
  have sameReturns : ∀ kind, single kind (dedent raw) =
      single kind (String.ofList (expandTabs raw.toList)) := by
    intro kind
    have sameRows : returnRows kind (dedent raw) =
        returnRows kind (String.ofList (expandTabs raw.toList)) :=
      filterMap_rows_dedent (Directive.passesBlanks_returnOfRow? kind) spaced
    rw [single, single, sameRows]
  exact ⟨filterMap_rows_dedent Directive.passesBlanks_typeOfRow? spaced, sameReturns .rtype,
    sameReturns .returns⟩

/-- A text with its types behind tabs, and two of them for what is returned. -/
def indentedTypes : String :=
  "Prune.\n\n\t:type by:\tint \n\t :rtype: bool\n\t:rtype: str\n  :return: both\n"

theorem dedent_reads_alike_indentedTypes :
    IsPlainlySpaced indentedTypes.toList ∧
      paramTypes (dedent indentedTypes) = [⟨"by", "int"⟩] ∧
      rtype (dedent indentedTypes) = .error ⟨.rtype, 2⟩ ∧
      returnDoc (dedent indentedTypes) = .ok (some "both") := by
  have spaced : IsPlainlySpaced indentedTypes.toList := by decide
  obtain ⟨sameTypes, sameType, sameReturn⟩ := (dedent_reads_alike indentedTypes).2 spaced
  rw [sameTypes, sameType, sameReturn]
  exact ⟨spaced, by decide +kernel⟩

/-- A wide space hides the type from its reader. It goes with the margin. -/
example : rtype "Prune it.\n\u3000:rtype: bool" = .ok none ∧
    rtype (dedent "Prune it.\n\u3000:rtype: bool") = .ok (some "bool") := by decide

end TypeStub.Documentation
