import TypeStub.TypeExpr

/-!
Contract: the two written forms of a type expression.

Owns:
- `docText`, the form used in documentation, which the reader of types understands;
- `stubText`, the form used in stubs, where constructors take square brackets.
-/

namespace TypeStub.TypeExpr

/-- Pieces with a comma and a space between neighbours. -/
def commaSeparated (pieces : List (List Char)) : List Char :=
  [',', ' '].intercalate pieces

/-- The type is a choice, which needs parentheses inside another choice. -/
def isUnion : TypeExpr → Bool
  | .union _ => true
  | _ => false

mutual

/-- The type as documentation writes it. -/
def docText : TypeExpr → List Char
  | .name path => path.toList
  | .literal text => text.toList
  | .generic ctor arguments =>
      ctor.docName.toList ++ '(' :: (commaSeparated (docTexts arguments) ++ [')'])
  | .union alternatives => [' ', 'o', 'r', ' '].intercalate (alternativeTexts alternatives)
  | .subscript base arguments =>
      docText base ++ '[' :: (commaSeparated (docTexts arguments) ++ [']'])

def docTexts : List TypeExpr → List (List Char)
  | [] => []
  | head :: tail => docText head :: docTexts tail

/-- Alternatives in order; one that is itself a choice stands in parentheses. -/
def alternativeTexts : List TypeExpr → List (List Char)
  | [] => []
  | head :: tail =>
      (if head.isUnion then '(' :: (docText head ++ [')']) else docText head) ::
        alternativeTexts tail

end

mutual

/-- The type as a stub writes it. -/
def stubText : TypeExpr → List Char
  | .name path => path.toList
  | .literal text => text.toList
  | .generic ctor arguments =>
      ctor.stubName.toList ++ '[' :: (commaSeparated (stubTexts arguments) ++ [']'])
  | .union alternatives => [' ', '|', ' '].intercalate (stubTexts alternatives)
  | .subscript base arguments =>
      stubText base ++ '[' :: (commaSeparated (stubTexts arguments) ++ [']'])

def stubTexts : List TypeExpr → List (List Char)
  | [] => []
  | head :: tail => stubText head :: stubTexts tail

end

/-- The type in the form of documentation. -/
def toDoc (type : TypeExpr) : String :=
  String.ofList type.docText

/-- The type in the form of stubs. -/
def toStub (type : TypeExpr) : String :=
  String.ofList type.stubText

theorem docTexts_eq_map (types : List TypeExpr) : docTexts types = types.map docText := by
  induction types with
  | nil => rfl
  | cons head tail inductionHypothesis => simp [docTexts, inductionHypothesis]

theorem stubTexts_eq_map (types : List TypeExpr) : stubTexts types = types.map stubText := by
  induction types with
  | nil => rfl
  | cons head tail inductionHypothesis => simp [stubTexts, inductionHypothesis]

end TypeStub.TypeExpr
