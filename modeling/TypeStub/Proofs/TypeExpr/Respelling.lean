import Mathlib.Logic.Relation
import TypeStub.Proofs.TypeExpr.Token
import TypeStub.TypeExpr.Parser

/-!
Contract: changes of spelling that do not change what a type expression is read as.

Owns:
- `Token.RunsOn`, two texts between which a run of word characters goes on, and the division of
  tokens everywhere else;
- `TypeExpr.Respells`, one change of spelling: white space that divides no word is put in or taken
  out, or a bar is written as a word;
- `TypeExpr.parse_of_respelled`, texts that differ by such changes are read alike.

The reader looks at the text only for its tokens and for the message about a malformed type, which
quotes it. So the reason for a refusal stays the same, and the quoted text does not.
-/

namespace TypeStub

namespace Token

/-- The last character of the first text and the first of the second are both of words. -/
def RunsOn (left right : List Char) : Prop :=
  ∃ c ∈ left.getLast?, ∃ d ∈ right.head?, isWordChar c = true ∧ isWordChar d = true

theorem not_runsOn_of_nil (right : List Char) : ¬ RunsOn [] right := by
  rintro ⟨_, isLast, -⟩
  cases isLast

theorem not_runsOn_of_last {left : List Char} {c : Char} (isLast : left.getLast? = some c)
    (outside : isWordChar c = false) (right : List Char) : ¬ RunsOn left right := by
  rintro ⟨other, isOther, _, -, inWord, -⟩
  rw [isLast] at isOther
  cases isOther
  rw [outside] at inWord
  cases inWord

/-- A text divides into parts that are read by themselves wherever no run of word characters
goes on. -/
theorem ofText_append {left right : List Char} (apart : ¬ RunsOn left right) :
    ofText (left ++ right) = ofText left ++ ofText right := by
  cases right with
  | nil => simp [ofText, scan, ofRun]
  | cons d rest =>
      by_cases inWord : isWordChar d = true
      · -- The second text begins inside a word, so it is the first one that ends outside.
        rcases List.eq_nil_or_concat left with rfl | ⟨front, c, rfl⟩
        · simp [ofText, scan, ofRun]
        · have outside : isWordChar c = false := by
            rw [← Bool.not_eq_true]
            intro ofWord
            exact apart ⟨c, by simp, d, rfl, ofWord, inWord⟩
          have alone := ofText_append_mark outside front []
          rw [List.concat_eq_append, alone, List.append_assoc, List.singleton_append,
            ofText_append_mark outside]
          simp [ofText, scan, ofRun]
      · rw [Bool.not_eq_true] at inWord
        have alone := ofText_append_mark inWord [] rest
        rw [List.nil_append] at alone
        rw [ofText_append_mark inWord, alone]
        simp [ofText, scan, ofRun]

theorem ofText_append_blanks {left blanks right : List Char}
    (ofBlanks : ∀ c ∈ blanks, Text.isBlank c = true) (apart : ¬ RunsOn left right) :
    ofText (left ++ (blanks ++ right)) = ofText left ++ ofText right := by
  induction blanks generalizing left with
  | nil => exact ofText_append apart
  | cons blank rest inductionHypothesis =>
      obtain ⟨ofBlank, ofRest⟩ := List.forall_mem_cons.mp ofBlanks
      have later := inductionHypothesis ofRest (not_runsOn_of_nil right)
      rw [List.cons_append, ofText_append_blank ofBlank]
      exact congrArg (ofText left ++ ·) later

end Token

namespace TypeExpr

open Token (RunsOn ofText)

/-- One change of spelling. -/
inductive Respells : List Char → List Char → Prop
  | blanksIn {left blanks right : List Char} (ofBlanks : ∀ c ∈ blanks, Text.isBlank c = true)
      (apart : ¬ RunsOn left right) : Respells (left ++ right) (left ++ (blanks ++ right))
  | blanksOut {left blanks right : List Char} (ofBlanks : ∀ c ∈ blanks, Text.isBlank c = true)
      (apart : ¬ RunsOn left right) : Respells (left ++ (blanks ++ right)) (left ++ right)
  | barAsWord (left right : List Char) :
      Respells (left ++ '|' :: right) (left ++ (" or ".toList ++ right))

theorem Respells.ofText_eq {left right : List Char} (respells : Respells left right) :
    ofText left = ofText right := by
  cases respells with
  | blanksIn ofBlanks apart =>
      rw [Token.ofText_append apart, Token.ofText_append_blanks ofBlanks apart]
  | blanksOut ofBlanks apart =>
      rw [Token.ofText_append apart, Token.ofText_append_blanks ofBlanks apart]
  | barAsWord front back =>
      rw [Token.ofText_append_mark (by decide)]
      exact (Token.separates_or front back).symm

theorem ofText_eq_of_respelled {left right : List Char}
    (respelled : Relation.ReflTransGen Respells left right) : ofText left = ofText right := by
  induction respelled with
  | refl => rfl
  | tail _ respells inductionHypothesis => exact inductionHypothesis.trans respells.ofText_eq

theorem parseChars_trim (text : List Char) : parseChars (Text.trim text) = parseChars text := by
  unfold parseChars
  rw [Token.ofText_trim]

/-- Only the message about a malformed type looks at the text itself. -/
theorem mapError_parse (text : String) :
    (parse text).mapError Malformed.reason = parseChars text.toList := by
  rw [← parseChars_trim]
  dsimp only [parse]
  cases parseChars (Text.trim text.toList) <;> rfl

/-- Texts that differ in spelling only are read as the same type with the same namespaces, or
both are refused for the same reason. -/
theorem parse_of_respelled {left right : String}
    (respelled : Relation.ReflTransGen Respells left.toList right.toList) :
    (parse left).mapError Malformed.reason = (parse right).mapError Malformed.reason := by
  have sameTokens := ofText_eq_of_respelled respelled
  rw [mapError_parse, mapError_parse]
  unfold parseChars
  rw [sameTokens]

theorem parse_of_respelled_union :
    Relation.ReflTransGen Respells "dict[str,int]|None".toList
        " dict[str, int] or None".toList ∧
      (parse "dict[str,int]|None").mapError Malformed.reason =
        (parse " dict[str, int] or None").mapError Malformed.reason := by
  have ofSpace : ∀ c ∈ [' '], Text.isBlank c = true := List.forall_mem_singleton.mpr rfl
  have first : Respells "dict[str,int]|None".toList " dict[str,int]|None".toList :=
    .blanksIn ofSpace (Token.not_runsOn_of_nil _)
  have second : Respells " dict[str,int]|None".toList " dict[str, int]|None".toList :=
    @Respells.blanksIn " dict[str,".toList [' '] "int]|None".toList ofSpace
      (Token.not_runsOn_of_last rfl rfl _)
  have third : Respells " dict[str, int]|None".toList " dict[str, int] or None".toList :=
    .barAsWord " dict[str, int]".toList "None".toList
  have respelled := Relation.ReflTransGen.head first (.head second (.single third))
  exact ⟨respelled, parse_of_respelled respelled⟩

end TypeExpr

end TypeStub
