import Mathlib.Data.List.Basic
import TypeStub.Declaration.Printer
import TypeStub.Proofs.Declaration.Docstring
import TypeStub.Proofs.Text.Line
import TypeStub.Proofs.TypeExpr.Line

/-!
Contract: which rows of a stub stand at the left margin.

Owns:
- `Layout.topRows`, the rows of a text that are neither empty nor indented;
- `IsTidy`, the declarations that have no line feed where a stub writes them in one row, and
  no documentation that ends with one;
- the top rows of a tidy module: its header, two for each class and one for each function.

Does not own: that assembled declarations are tidy (`TypeStub.Proofs.Declaration.Tidy`).
-/

namespace TypeStub

open Text

/-! ## Rows at the left margin -/

namespace Layout

open Decl (indentUnit)

/-- The row has characters and does not begin with four spaces. -/
def isTopRow (row : List Char) : Bool :=
  !row.isEmpty && !indentUnit.isPrefixOf row

/-- The rows of a text that stand at the left margin, in order. -/
def topRows (text : List Char) : List (List Char) :=
  (rows text).filter isTopRow

/-- The text is in one row, which is indented. -/
def IsIndentedRow (row : List Char) : Prop :=
  '\n' ∉ row ∧ indentUnit <+: row

@[simp] theorem topRows_nil : topRows [] = [] :=
  rfl

theorem topRows_feed (left right : List Char) :
    topRows (left ++ '\n' :: right) = topRows left ++ topRows right := by
  rw [topRows, rows, List.splitOn_append_cons_self, List.filter_append]
  rfl

theorem isTopRow_of_head {row : List Char} {c : Char} (begins : row.head? = some c)
    (notSpace : c ≠ ' ') : isTopRow row = true := by
  obtain ⟨rest, rfl⟩ := List.head?_eq_some_iff.mp begins
  simp [isTopRow, indentUnit, List.isPrefixOf, notSpace.symm]

/-- A row that begins with no space is all of its text that stands at the left margin. -/
theorem topRows_of_head {row : List Char} {c : Char} (inLine : '\n' ∉ row)
    (begins : row.head? = some c) (notSpace : c ≠ ' ') : topRows row = [row] := by
  rw [topRows, rows, List.splitOn_eq_singleton inLine,
    List.filter_cons_of_pos (isTopRow_of_head begins notSpace), List.filter_nil]

theorem topRows_of_indented {row : List Char} (indented : IsIndentedRow row) :
    topRows row = [] := by
  have notTop : ¬ isTopRow row = true := by
    rw [isTopRow, List.isPrefixOf_iff_prefix.mpr indented.2]
    simp
  rw [topRows, rows, List.splitOn_eq_singleton indented.1, List.filter_cons_of_neg notTop,
    List.filter_nil]

theorem topRows_unrows (parts : List (List Char)) :
    topRows (unrows parts) = parts.flatMap topRows := by
  induction parts with
  | nil => rfl
  | cons head tail inductionHypothesis =>
      by_cases alone : tail = []
      · simp [alone, unrows]
      · rw [unrows_cons head alone, topRows_feed, inductionHypothesis, List.flatMap_cons]

/-- The blank line between blocks is no top row. -/
theorem topRows_blocks (blocks : List (List Char)) :
    topRows (['\n', '\n'].intercalate blocks) = blocks.flatMap topRows := by
  induction blocks with
  | nil => rfl
  | cons head tail inductionHypothesis =>
      by_cases alone : tail = []
      · simp [alone]
      · have between := topRows_feed [] (['\n', '\n'].intercalate tail)
        rw [List.nil_append, topRows_nil, List.nil_append, inductionHypothesis] at between
        rw [List.intercalate_cons_of_ne_nil alone, List.append_assoc, List.flatMap_cons, ← between]
        exact topRows_feed head _

theorem isIndentedRow_append {indent row : List Char} (indented : IsIndentedRow indent)
    (inLine : '\n' ∉ row) : IsIndentedRow (indent ++ row) :=
  ⟨by simp [indented.1, inLine], indented.2.trans (List.prefix_append indent row)⟩

theorem isIndentedRow_unit : IsIndentedRow indentUnit :=
  ⟨by decide, List.prefix_refl indentUnit⟩

end Layout

/-! ## Literals -/

namespace Docstring

open Layout

private theorem getLast?_cons_of_ne {c : Char} (inLine : c ≠ '\n') (text : List Char) :
    (c :: text).getLast? = some '\n' ↔ text.getLast? = some '\n' := by
  rw [List.getLast?_cons]
  cases text.getLast? with
  | none => simp [inLine]
  | some last => simp

private theorem escapeOnward_eq_nil {doc : List Char} (empty : escapeOnward doc = []) :
    doc = [] := by
  revert empty
  fun_cases escapeOnward doc <;> simp

/-- A literal only ends with a line feed if its documentation does. -/
private theorem getLast?_escapeOnward {doc : List Char}
    (ends : (escapeOnward doc).getLast? = some '\n') : doc.getLast? = some '\n' := by
  fun_induction escapeOnward doc with
  | case1 => cases ends
  | case2 => simp at ends
  | case3 c rest inductionHypothesis =>
      simp only [getLast?_cons_of_ne (show '"' ≠ '\n' by decide),
        getLast?_cons_of_ne (show '\\' ≠ '\n' by decide)] at ends ⊢
      exact inductionHypothesis ends
  | case4 rest inductionHypothesis =>
      simp only [getLast?_cons_of_ne (show '\\' ≠ '\n' by decide)] at ends ⊢
      exact inductionHypothesis ends
  | case5 c rest _ _ _ inductionHypothesis =>
      by_cases feed : c = '\n'
      · cases later : (escapeOnward rest).getLast? with
        | none =>
            have empty : rest = [] := escapeOnward_eq_nil (List.getLast?_eq_none_iff.mp later)
            simp [empty, feed]
        | some last =>
            rw [List.getLast?_cons, later, Option.getD_some] at ends
            rw [List.getLast?_cons, inductionHypothesis (later.trans ends)]
            rfl
      · rw [getLast?_cons_of_ne feed] at ends ⊢
        exact inductionHypothesis ends

/-- A row with the indentation before it, unless it is empty. -/
private def indentRow (indent row : List Char) : List Char :=
  if row.isEmpty then row else indent ++ row

private theorem topRows_indentRow {indent row : List Char} (ofIndent : Layout.IsIndentedRow indent)
    (inLine : '\n' ∉ row) : topRows (indentRow indent row) = [] := by
  rw [indentRow]
  split
  · rename_i empty
    rw [List.isEmpty_iff.mp empty, topRows_nil]
  · exact topRows_of_indented (isIndentedRow_append ofIndent inLine)

/-- Indented rows with a delimiter behind the last of them, which is not empty. -/
private theorem topRows_indented_rows {indent : List Char} (ofIndent : Layout.IsIndentedRow indent)
    {later : List (List Char)} {last : List Char} (inLine : ∀ row ∈ later ++ [last], '\n' ∉ row)
    (nonempty : last ≠ []) :
    topRows (unrows ((later ++ [last]).map (indentRow indent)) ++ delimiter) = [] := by
  induction later with
  | nil =>
      have ofLast : indentRow indent last = indent ++ last := by
        simp [indentRow, nonempty]
      have lastInLine : '\n' ∉ last ++ delimiter := by
        simp [inLine last (by simp), delimiter]
      simp only [List.nil_append, List.map_singleton, unrows, List.intercalate_singleton, ofLast,
        List.append_assoc]
      exact topRows_of_indented (isIndentedRow_append ofIndent lastInLine)
  | cons head tail inductionHypothesis =>
      have headInLine := inLine head (by simp)
      have ofTail := inductionHypothesis
        fun row member => inLine row (List.mem_cons_of_mem head member)
      rw [List.cons_append, List.map_cons, unrows_cons _ (by simp), List.append_assoc,
        List.cons_append, topRows_feed, topRows_indentRow ofIndent headInLine, ofTail]
      rfl

/-- The last of several rows is empty only if the text ends with a line feed. -/
private theorem last_ne_nil_of_rows {text first last : List Char} {later : List (List Char)}
    (divided : rows text = first :: (later ++ [last])) (ends : text.getLast? ≠ some '\n') :
    last ≠ [] := by
  rintro rfl
  refine ends ?_
  have written : text = unrows ((first :: later) ++ [[]]) := by
    rw [List.cons_append, ← divided, unrows_rows]
  rw [written, unrows, Intercalate.append_singleton ['\n'] (List.cons_ne_nil first later)]
  simp

/-- All rows of an indented literal are indented or empty. -/
theorem topRows_literal {doc indent : List Char} (ofIndent : IsIndentedRow indent)
    (ends : doc.getLast? ≠ some '\n') : topRows (literal doc indent) = [] := by
  obtain ⟨first, rest, divided⟩ :=
    List.exists_cons_of_ne_nil (List.splitOn_ne_nil '\n' (escape doc))
  change rows (escape doc) = first :: rest at divided
  have inLine : ∀ row ∈ first :: rest, '\n' ∉ row := by
    intro row member
    rw [← divided] at member
    exact feed_not_mem_rows member
  have firstInLine : '\n' ∉ delimiter ++ first := by
    simp [delimiter, inLine first List.mem_cons_self]
  have opened := isIndentedRow_append ofIndent firstInLine
  have indented : indentRows indent (first :: rest) = first :: rest.map (indentRow indent) := rfl
  rw [literal, divided, indented]
  rcases List.eq_nil_or_concat rest with rfl | ⟨later, last, rfl⟩
  · have closed := isIndentedRow_append opened (show '\n' ∉ delimiter by decide)
    simpa [unrows] using topRows_of_indented closed
  · -- The closing delimiter stands behind the last row. Were that row empty, the delimiter would
    -- stand at the left margin.
    rw [List.concat_eq_append] at divided inLine ⊢
    have escapeEnds : (escape doc).getLast? ≠ some '\n' := by
      rw [escape_eq_escapeOnward]
      exact fun feed => ends (getLast?_escapeOnward feed)
    have nonempty := last_ne_nil_of_rows divided escapeEnds
    have below := topRows_indented_rows ofIndent
      (fun row member => inLine row (List.mem_cons_of_mem first member)) nonempty
    have above := topRows_of_indented opened
    rw [unrows_cons first (by simp)]
    have split := topRows_feed (indent ++ (delimiter ++ first))
      (unrows ((later ++ [last]).map (indentRow indent)) ++ delimiter)
    rw [above, below, List.nil_append] at split
    simpa using split

end Docstring

/-! ## Declarations -/

namespace Decl

open Layout

/-- Nothing in the parameter ends the row that it stands in. -/
structure Parameter.IsTidy (parameter : Parameter) : Prop where
  name : '\n' ∉ parameter.name.toList
  annotation : ∀ type ∈ parameter.annotation, type.WellFormed

/-- Nothing before the documentation of the callable ends a row, and the documentation does
not end with a line feed. -/
structure Callable.IsTidy (callable : Callable) : Prop where
  name : '\n' ∉ callable.name.toList
  parameters : ∀ parameter ∈ callable.parameters, parameter.IsTidy
  returns : ∀ type ∈ callable.returns, type.WellFormed
  doc : ∀ doc ∈ callable.doc, doc.toList.getLast? ≠ some '\n'

/-- The same for an attribute with a type. -/
structure Accessor.IsTidy (accessor : Accessor) : Prop where
  name : '\n' ∉ accessor.name.toList
  annotation : ∀ type ∈ accessor.annotation, type.WellFormed
  doc : ∀ doc ∈ accessor.doc, doc.toList.getLast? ≠ some '\n'

def Attribute.IsTidy : Attribute → Prop
  | .accessor declared => declared.IsTidy
  | .placeholder name => '\n' ∉ name.toList

/-- The same for a class and everything in its body. -/
structure Class.IsTidy (cls : Class) : Prop where
  name : '\n' ∉ cls.name.toList
  bases : ∀ base ∈ cls.bases, '\n' ∉ base.toList
  constructor : ∀ callable ∈ cls.constructor, callable.IsTidy
  attributes : ∀ declared ∈ cls.attributes, declared.IsTidy
  methods : ∀ callable ∈ cls.methods, callable.IsTidy
  magicMethods : ∀ callable ∈ cls.magicMethods, callable.IsTidy
  doc : ∀ doc ∈ cls.doc, doc.toList.getLast? ≠ some '\n'

/-- The same for a module and its imports. -/
structure Module.IsTidy (module : Module) : Prop where
  classes : ∀ cls ∈ module.classes, cls.IsTidy
  functions : ∀ callable ∈ module.functions, callable.IsTidy
  namespaces : ∀ name ∈ module.namespaces, '\n' ∉ name.toList

theorem Parameter.feed_not_mem_text {parameter : Parameter} (tidy : parameter.IsTidy) :
    '\n' ∉ parameter.text := by
  have inStars : '\n' ∉ stars parameter.kind := by cases parameter.kind <;> decide
  have named : '\n' ∉ stars parameter.kind ++ parameter.name.toList :=
    List.not_mem_append inStars tidy.name
  have typed : ∀ type, parameter.annotation = some type →
      '\n' ∉ stars parameter.kind ++ parameter.name.toList ++ ": ".toList ++ type.stubText := by
    intro type isType
    exact List.not_mem_append (List.not_mem_append named (by decide))
      (tidy.annotation type isType).feed_not_mem_stubText
  unfold text
  split
  · rename_i type _ isType _
    exact List.not_mem_append (typed type isType) (by decide)
  · rename_i type isType _
    exact typed type isType
  · exact List.not_mem_append named (by decide)
  · exact named

private theorem feed_not_mem_parts {variadic : Bool} {previous : Option ParameterKind}
    {parameters : List Parameter} (tidy : ∀ parameter ∈ parameters, parameter.IsTidy) :
    ∀ part ∈ Parameter.parts variadic previous parameters, '\n' ∉ part := by
  have ofSlash : ∀ previous, ∀ part ∈ Parameter.slash previous, '\n' ∉ part := by
    intro previous part member
    unfold Parameter.slash at member
    split at member
    · rw [List.mem_singleton.mp member]
      decide
    · cases member
  have ofStar : ∀ previous kind, ∀ part ∈ Parameter.star variadic previous kind, '\n' ∉ part := by
    intro previous kind part member
    unfold Parameter.star at member
    split at member
    · rw [List.mem_singleton.mp member]
      decide
    · cases member
  induction parameters generalizing previous with
  | nil => exact ofSlash previous
  | cons head tail inductionHypothesis =>
      intro part member
      rw [Parameter.parts, List.mem_append, List.mem_append] at member
      rcases member with (inSlash | inStar) | inRest
      · split at inSlash
        · cases inSlash
        · exact ofSlash previous part inSlash
      · exact ofStar previous head.kind part inStar
      rcases List.mem_cons.mp inRest with rfl | inTail
      · exact Parameter.feed_not_mem_text (tidy head List.mem_cons_self)
      · exact inductionHypothesis
          (fun parameter inside => tidy parameter (List.mem_cons_of_mem head inside)) part inTail

theorem Parameter.feed_not_mem_listText {parameters : List Parameter}
    (tidy : ∀ parameter ∈ parameters, parameter.IsTidy) : '\n' ∉ listText parameters := by
  intro member
  rcases Intercalate.mem_or_mem member with inSeparator | ⟨part, inParts, inside⟩
  · simp at inSeparator
  · exact feed_not_mem_parts tidy part inParts inside

/-! ## Callables and attributes -/

/-- The row that opens a callable. -/
def Callable.headRow (callable : Callable) : List Char :=
  "def ".toList ++ callable.name.toList ++ '(' ::
    (Parameter.listText callable.parameters ++ [')']) ++
    (match callable.returns with
      | some type => " -> ".toList ++ type.stubText
      | none => []) ++
    (if callable.doc.isSome then [':'] else ": ...".toList)

private theorem Callable.text_of_doc {callable : Callable} {doc : String}
    (isDoc : callable.doc = some doc) (indent : List Char) :
    callable.text indent =
      (indent ++ callable.headRow) ++
        '\n' :: Docstring.literal doc.toList (indent ++ indentUnit) := by
  unfold text headRow
  rw [isDoc, Option.isSome_some, if_pos rfl]
  simp only [List.append_assoc, List.cons_append]
  rfl

private theorem Callable.text_of_no_doc {callable : Callable} (noDoc : callable.doc = none)
    (indent : List Char) : callable.text indent = indent ++ callable.headRow := by
  unfold text headRow
  rw [noDoc]
  cases callable.returns <;> simp

theorem Callable.feed_not_mem_headRow {callable : Callable} (tidy : callable.IsTidy) :
    '\n' ∉ callable.headRow := by
  have inName := tidy.name
  have inList := Parameter.feed_not_mem_listText tidy.parameters
  have inType : ∀ type, callable.returns = some type → '\n' ∉ type.stubText :=
    fun type isType => (tidy.returns type isType).feed_not_mem_stubText
  unfold headRow
  cases isDoc : callable.doc with
  | none => cases returned : callable.returns <;> simp [inName, inList, inType, returned]
  | some doc => cases returned : callable.returns <;> simp [inName, inList, inType, returned]

theorem Callable.topRows_text_indented {callable : Callable} (tidy : callable.IsTidy) :
    topRows (callable.text indentUnit) = [] := by
  have ofHead := topRows_of_indented
    (isIndentedRow_append isIndentedRow_unit (feed_not_mem_headRow tidy))
  cases isDoc : callable.doc with
  | none => rw [text_of_no_doc isDoc, ofHead]
  | some doc =>
      have ofDoc := Docstring.topRows_literal
        (isIndentedRow_append isIndentedRow_unit isIndentedRow_unit.1) (tidy.doc doc isDoc)
      rw [text_of_doc isDoc, topRows_feed, ofHead, ofDoc]
      rfl

theorem Callable.topRows_text {callable : Callable} (tidy : callable.IsTidy) :
    topRows (callable.text []) = [callable.headRow] := by
  have ofHead : topRows callable.headRow = [callable.headRow] :=
    topRows_of_head (c := 'd') (feed_not_mem_headRow tidy) rfl (by decide)
  cases isDoc : callable.doc with
  | none => rw [text_of_no_doc isDoc, List.nil_append, ofHead]
  | some doc =>
      have ofDoc := Docstring.topRows_literal isIndentedRow_unit (tidy.doc doc isDoc)
      rw [text_of_doc isDoc, List.nil_append, topRows_feed, ofHead, List.nil_append, ofDoc]
      rfl

theorem Accessor.topRows_text {accessor : Accessor} (tidy : accessor.IsTidy) :
    topRows (accessor.text indentUnit) = [] := by
  have inName := tidy.name
  have inType : '\n' ∉ (accessor.annotation.getD .any).stubText := by
    cases isType : accessor.annotation with
    | none => decide
    | some type => exact (tidy.annotation type isType).feed_not_mem_stubText
  have inRow : '\n' ∉ accessor.name.toList ++
      (": ".toList ++ (accessor.annotation.getD .any).stubText) := by
    simp [inName, inType]
  have ofRow := topRows_of_indented (isIndentedRow_append isIndentedRow_unit inRow)
  cases isDoc : accessor.doc with
  | none => simpa [text, isDoc] using ofRow
  | some doc =>
      have ofDoc := Docstring.topRows_literal isIndentedRow_unit (tidy.doc doc isDoc)
      have split := topRows_feed (indentUnit ++ (accessor.name.toList ++
        (": ".toList ++ (accessor.annotation.getD .any).stubText)))
        (Docstring.literal doc.toList indentUnit)
      rw [ofRow, ofDoc, List.nil_append] at split
      simpa [text, isDoc] using split

theorem Attribute.topRows_text {declared : Attribute} (tidy : declared.IsTidy) :
    topRows (declared.text indentUnit) = [] := by
  cases declared with
  | accessor declared => exact Accessor.topRows_text tidy
  | placeholder name =>
      have inRow : '\n' ∉ name.toList ++ " = ...".toList := List.not_mem_append tidy (by decide)
      have ofRow := topRows_of_indented (isIndentedRow_append isIndentedRow_unit inRow)
      rw [text, List.append_assoc, ofRow]

/-! ## Classes and modules -/

theorem Class.feed_not_mem_header {cls : Class} (tidy : cls.IsTidy) : '\n' ∉ cls.header := by
  have inName := tidy.name
  have inBases : '\n' ∉ [',', ' '].intercalate (cls.bases.map String.toList) := by
    intro member
    rcases Intercalate.mem_or_mem member with inSeparator | ⟨part, inParts, inside⟩
    · simp at inSeparator
    · obtain ⟨base, inBases, rfl⟩ := List.mem_map.mp inParts
      exact tidy.bases base inBases inside
  have opening : '\n' ∉ "class ".toList ++ cls.name.toList := List.not_mem_append (by decide) inName
  refine List.not_mem_append (List.not_mem_append opening ?_) (by decide)
  split
  · exact List.not_mem_nil
  · simp [inBases]

/-- Nothing in the body of a class stands at the left margin. -/
theorem Class.topRows_body {cls : Class} (tidy : cls.IsTidy) :
    ∀ part ∈ cls.body, topRows part = [] := by
  intro part member
  simp only [body, List.mem_append, List.mem_map, Option.mem_toList] at member
  rcases member with ((⟨doc, isDoc, rfl⟩ | ⟨callable, isConstructor, rfl⟩) |
    ⟨declared, isAttribute, rfl⟩) | ⟨callable, isMethod | isMagic, rfl⟩
  · exact Docstring.topRows_literal isIndentedRow_unit (tidy.doc doc isDoc)
  · exact Callable.topRows_text_indented (tidy.constructor callable isConstructor)
  · exact Attribute.topRows_text (tidy.attributes declared isAttribute)
  · exact Callable.topRows_text_indented (tidy.methods callable isMethod)
  · exact Callable.topRows_text_indented (tidy.magicMethods callable isMagic)

theorem Class.topRows_text {cls : Class} (tidy : cls.IsTidy) :
    topRows cls.text = ["@typing.final".toList, cls.header] := by
  have ofDecorator : topRows "@typing.final".toList = ["@typing.final".toList] := by decide
  have ofHeader : topRows cls.header = [cls.header] :=
    topRows_of_head (c := 'c') (feed_not_mem_header tidy) rfl (by decide)
  have ofBody : (if cls.isEmptyBody then [indentUnit ++ ['.', '.', '.']] else cls.body).flatMap
      topRows = [] := by
    rw [List.flatMap_eq_nil_iff]
    split
    · decide
    · exact topRows_body tidy
  rw [text, topRows_unrows, List.flatMap_cons, List.flatMap_cons, ofDecorator, ofHeader, ofBody]
  rfl

/-- The row that imports a namespace. -/
def Module.importRow (name : String) : List Char :=
  "import ".toList ++ name.toList

/-- The rows at the left margin of a module: one for annotations, one for each import, two
for each class and one for each function. -/
def Module.outline (module : Module) : List (List Char) :=
  "from __future__ import annotations".toList ::
    (module.namespaces.items.map importRow ++
      (module.classes.flatMap fun cls => ["@typing.final".toList, cls.header]) ++
      module.functions.map Callable.headRow)

private theorem Module.topRows_header {module : Module} (tidy : module.IsTidy) :
    topRows module.header =
      "from __future__ import annotations".toList :: module.namespaces.items.map importRow := by
  have ofFirst : topRows "from __future__ import annotations".toList =
      ["from __future__ import annotations".toList] := by decide
  have ofImports : (module.namespaces.items.map importRow).flatMap topRows =
      module.namespaces.items.map importRow := by
    have single : ∀ name ∈ module.namespaces.items,
        topRows (importRow name) = [importRow name] := by
      intro name member
      have inRow : '\n' ∉ importRow name :=
        List.not_mem_append (by decide) (tidy.namespaces name member)
      exact topRows_of_head (c := 'i') inRow rfl (by decide)
    rw [List.flatMap_map, List.flatMap_congr single]
    exact List.map_eq_flatMap.symm
  have written : module.header = unrows ("from __future__ import annotations".toList ::
      module.namespaces.items.map importRow) := rfl
  rw [written, topRows_unrows, List.flatMap_cons, ofFirst, ofImports]
  rfl

/-- The rows of a tidy module at the left margin are those of its outline. -/
theorem Module.topRows_text {module : Module} (tidy : module.IsTidy) :
    topRows module.text = module.outline := by
  have ofClasses : (module.classes.map Class.text).flatMap topRows =
      module.classes.flatMap fun cls => ["@typing.final".toList, cls.header] := by
    rw [List.flatMap_map]
    exact List.flatMap_congr fun cls member => Class.topRows_text (tidy.classes cls member)
  have ofFunctions : (module.functions.map fun callable => callable.text []).flatMap topRows =
      module.functions.map Callable.headRow := by
    rw [List.flatMap_map, List.flatMap_congr fun callable member =>
      Callable.topRows_text (tidy.functions callable member)]
    exact List.map_eq_flatMap.symm
  have final := topRows_feed (['\n', '\n'].intercalate module.blocks) []
  rw [topRows_nil, List.append_nil, topRows_blocks] at final
  rw [text, final, blocks, List.flatMap_cons, List.flatMap_append, ofClasses, ofFunctions,
    topRows_header tidy, outline, List.cons_append, List.append_assoc]

end Decl

end TypeStub
