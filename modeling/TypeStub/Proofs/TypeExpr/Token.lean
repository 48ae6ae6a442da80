import Mathlib.Data.List.Induction
import TypeStub.Proofs.TypeExpr.Shape
import TypeStub.TypeExpr.Token

/-!
Contract: what dividing a text into tokens keeps and what it loses.

Owns:
- the division at a character outside words, from which all others follow;
- `wordRuns`, the maximal runs of word characters, which decide where a bar is read;
- `IsGenuine`, the tokens that a text can have;
- the way back from tokens to inline text.
-/

namespace TypeStub.Token

open TypeExpr (isInline)

/-! ## Division at a character outside words -/

private theorem scan_append_mark {c : Char} (outside : isWordChar c = false)
    (left right : List Char) :
    scan (left ++ c :: right) =
      ((scan left).1, (scan left).2 ++ (ofMark c ++ ofText right)) := by
  induction left with
  | nil => simp [scan, outside, ofText]
  | cons head tail inductionHypothesis =>
      rw [List.cons_append, scan, inductionHypothesis, scan]
      by_cases inWord : isWordChar head = true
      · simp [inWord]
      · simp [inWord]

/-- A character outside words divides a text into parts that are read by themselves. -/
theorem ofText_append_mark {c : Char} (outside : isWordChar c = false)
    (left right : List Char) :
    ofText (left ++ c :: right) = ofText left ++ (ofMark c ++ ofText right) := by
  unfold ofText
  rw [scan_append_mark outside, List.append_assoc]
  rfl

private theorem scan_run {run : List Char} (inWord : ∀ c ∈ run, isWordChar c = true) :
    scan run = (run, []) := by
  induction run with
  | nil => rfl
  | cons head tail inductionHypothesis =>
      have ofTail := inductionHypothesis fun c member => inWord c (List.mem_cons_of_mem head member)
      simp [scan, inWord head List.mem_cons_self, ofTail]

theorem ofText_run {run : List Char} (inWord : ∀ c ∈ run, isWordChar c = true) :
    ofText run = ofRun run := by
  simp [ofText, scan_run inWord]

theorem ofRun_of_ne {run : List Char} (nonempty : run ≠ []) (notBar : run ≠ ['o', 'r']) :
    ofRun run = [.word run] := by
  unfold ofRun
  split
  · exact absurd rfl nonempty
  · exact absurd rfl notBar
  · rfl

/-! ## Separators -/

/-- A separator that is read by itself, wherever it stands, as the tokens `marks`. -/
def Separates (separator : List Char) (marks : List Token) : Prop :=
  ∀ left right, ofText (left ++ (separator ++ right)) = ofText left ++ (marks ++ ofText right)

/-- Texts with a separator between neighbours have the tokens of each, with those of the
separator between neighbours. -/
theorem Separates.ofText_intercalate {separator : List Char} {marks : List Token}
    (separates : Separates separator marks) (texts : List (List Char)) :
    ofText (separator.intercalate texts) = marks.intercalate (texts.map ofText) := by
  induction texts with
  | nil => rfl
  | cons head tail inductionHypothesis =>
      cases tail with
      | nil => simp
      | cons second others =>
          rw [List.intercalate_cons_cons, List.append_assoc, separates, inductionHypothesis]
          simp [List.intercalate_cons_cons]

theorem separates_other {c : Char} (outside : isWordChar c = false)
    (plain : ofMark c = [.other c]) : Separates [c] [.other c] := by
  intro left right
  rw [List.singleton_append, ofText_append_mark outside, plain]

/-! ## Letters, digits and white space -/

theorem isAlpha_iff {c : Char} :
    c.isAlpha = true ↔ (65 ≤ c.toNat ∧ c.toNat ≤ 90) ∨ (97 ≤ c.toNat ∧ c.toNat ≤ 122) := by
  change (decide (65 ≤ c.val ∧ c.val ≤ 90) || (decide (97 ≤ c.val) && decide (c.val ≤ 122))) =
    true ↔ _
  rw [Bool.or_eq_true, Bool.and_eq_true, decide_eq_true_iff, decide_eq_true_iff,
    decide_eq_true_iff, UInt32.le_iff_toNat_le, UInt32.le_iff_toNat_le, UInt32.le_iff_toNat_le,
    UInt32.le_iff_toNat_le]
  exact Iff.rfl

theorem isDigit_iff {c : Char} : c.isDigit = true ↔ 48 ≤ c.toNat ∧ c.toNat ≤ 57 := by
  change (decide (48 ≤ c.val) && decide (c.val ≤ 57)) = true ↔ _
  rw [Bool.and_eq_true, decide_eq_true_iff, decide_eq_true_iff, UInt32.le_iff_toNat_le,
    UInt32.le_iff_toNat_le]
  exact Iff.rfl

theorem not_isBlank_of_isWordChar {c : Char} (inWord : isWordChar c = true) :
    Text.isBlank c = false := by
  rw [isWordChar, Bool.or_eq_true, beq_iff_eq] at inWord
  rcases inWord with letter | rfl
  · rw [isAlpha_iff] at letter
    simp only [Text.isBlank, Text.blankRanges, List.any_cons, List.any_nil, Bool.or_false,
      Bool.or_eq_false_iff, Bool.and_eq_false_iff, decide_eq_false_iff_not]
    omega
  · decide

theorem not_isDigit_of_isAlpha {c : Char} (letter : c.isAlpha = true) : c.isDigit = false := by
  rw [isAlpha_iff] at letter
  rw [← Bool.not_eq_true, isDigit_iff]
  omega

theorem not_isDigit_of_isWordChar {c : Char} (inWord : isWordChar c = true) :
    c.isDigit = false := by
  rw [isWordChar, Bool.or_eq_true, beq_iff_eq] at inWord
  rcases inWord with letter | rfl
  · exact not_isDigit_of_isAlpha letter
  · decide

theorem not_isWordChar_of_isBlank {c : Char} (blank : Text.isBlank c = true) :
    isWordChar c = false := by
  cases inWord : isWordChar c with
  | false => rfl
  | true => exact absurd blank (by simp [not_isBlank_of_isWordChar inWord])

theorem ofMark_blank {c : Char} (blank : Text.isBlank c = true) : ofMark c = [] := by
  unfold ofMark
  split
  · subst c
    exact absurd blank (by decide)
  split
  · subst c
    exact absurd blank (by decide)
  split
  · subst c
    exact absurd blank (by decide)
  rfl

theorem ofText_append_blank {c : Char} (blank : Text.isBlank c = true)
    (left right : List Char) :
    ofText (left ++ c :: right) = ofText left ++ ofText right := by
  rw [ofText_append_mark (not_isWordChar_of_isBlank blank), ofMark_blank blank, List.nil_append]

/-- White space that a text begins with has no token. -/
theorem ofText_dropWhile {drop : Char → Bool}
    (ofBlanks : ∀ c, drop c = true → Text.isBlank c = true) (text : List Char) :
    ofText (text.dropWhile drop) = ofText text := by
  induction text with
  | nil => rfl
  | cons c rest inductionHypothesis =>
      by_cases dropped : drop c = true
      · rw [List.dropWhile_cons_of_pos dropped, inductionHypothesis]
        exact (ofText_append_blank (ofBlanks c dropped) [] rest).symm
      · rw [List.dropWhile_cons_of_neg dropped]

/-- White space that a text ends with has no token. -/
theorem ofText_trimEndBy {drop : Char → Bool}
    (ofBlanks : ∀ c, drop c = true → Text.isBlank c = true) (text : List Char) :
    ofText (Text.trimEndBy drop text) = ofText text := by
  unfold Text.trimEndBy
  induction text using List.reverseRecOn with
  | nil => rfl
  | append_singleton front c inductionHypothesis =>
      rw [List.reverse_append, List.reverse_singleton, List.singleton_append]
      by_cases dropped : drop c = true
      · rw [List.dropWhile_cons_of_pos dropped, inductionHypothesis,
          ofText_append_blank (ofBlanks c dropped)]
        exact (List.append_nil _).symm
      · rw [List.dropWhile_cons_of_neg dropped, List.reverse_cons, List.reverse_reverse]

theorem ofText_trim (text : List Char) : ofText (Text.trim text) = ofText text := by
  rw [Text.trim, Text.trimEnd, ofText_trimEndBy fun _ blank => blank, Text.trimStart,
    ofText_dropWhile fun _ blank => blank]

theorem separates_comma : Separates [','] [.other ','] :=
  separates_other (by decide) (by decide)

theorem separates_comma_space : Separates [',', ' '] [.other ','] := by
  intro left right
  have afterSpace : ofText (' ' :: right) = ofText right :=
    ofText_append_blank (by decide) [] right
  change ofText (left ++ ',' :: ' ' :: right) = _
  rw [ofText_append_mark (by decide), afterSpace]
  rfl

theorem separates_or : Separates [' ', 'o', 'r', ' '] [.bar] := by
  intro left right
  have word : ofText ['o', 'r'] = [.bar] := ofText_run (List.all_eq_true.mp (by decide))
  change ofText (left ++ ' ' :: (['o', 'r'] ++ ' ' :: right)) = _
  rw [ofText_append_blank (by decide), ofText_append_blank (by decide), word]

/-! ## The tokens that a text can have -/

/-- A token that some text has: a word is a run other than `or`, and any other character is
neither of a word nor one with a meaning of its own. -/
def IsGenuine : Token → Prop
  | .word letters => letters ≠ [] ∧ (∀ c ∈ letters, isWordChar c = true) ∧ letters ≠ ['o', 'r']
  | .other c => isWordChar c = false ∧ isInline c = true
  | _ => True

private theorem isGenuine_of_mem_ofRun {run : List Char} (inWord : ∀ c ∈ run, isWordChar c = true)
    {token : Token} (member : token ∈ ofRun run) : token.IsGenuine := by
  unfold ofRun at member
  split at member
  · exact absurd member List.not_mem_nil
  · rw [List.mem_singleton.mp member]
    trivial
  · rename_i notEmpty notBar
    rw [List.mem_singleton.mp member]
    exact ⟨notEmpty, inWord, notBar⟩

private theorem isGenuine_of_mem_ofMark {c : Char} (outside : isWordChar c = false)
    {token : Token} (member : token ∈ ofMark c) : token.IsGenuine := by
  unfold ofMark at member
  split at member
  · rw [List.mem_singleton.mp member]
    trivial
  split at member
  · rw [List.mem_singleton.mp member]
    trivial
  split at member
  · rw [List.mem_singleton.mp member]
    trivial
  split at member
  · exact absurd member List.not_mem_nil
  · rw [List.mem_singleton.mp member]
    refine ⟨outside, ?_⟩
    simp_all [isInline]

private theorem scan_genuine (text : List Char) :
    (∀ c ∈ (scan text).1, isWordChar c = true) ∧ ∀ token ∈ (scan text).2, token.IsGenuine := by
  induction text with
  | nil => simp [scan]
  | cons c rest inductionHypothesis =>
      obtain ⟨run, later⟩ := inductionHypothesis
      rw [scan]
      by_cases inWord : isWordChar c = true
      · simp only [if_pos inWord]
        refine ⟨?_, later⟩
        intro d member
        rcases List.mem_cons.mp member with rfl | member
        · exact inWord
        · exact run d member
      · simp only [if_neg inWord]
        refine ⟨by simp, ?_⟩
        intro token member
        rcases List.mem_append.mp member with front | inLater
        · rcases List.mem_append.mp front with inMark | inRun
          · exact isGenuine_of_mem_ofMark (Bool.not_eq_true _ ▸ inWord) inMark
          · exact isGenuine_of_mem_ofRun run inRun
        · exact later token inLater

theorem isGenuine_of_mem_ofText {text : List Char} {token : Token}
    (member : token ∈ ofText text) : token.IsGenuine := by
  rcases List.mem_append.mp member with inRun | inLater
  · exact isGenuine_of_mem_ofRun (scan_genuine text).1 inRun
  · exact (scan_genuine text).2 token inLater

/-! ## Words and bars -/

/-- The maximal runs of word characters; one is empty where two other characters meet. -/
def wordRuns (text : List Char) : List (List Char) :=
  text.splitOnP fun c => !isWordChar c

/-- No run of word characters in the text is the word `or`. -/
def SpellsNoBar (text : List Char) : Prop :=
  ['o', 'r'] ∉ wordRuns text

instance (text : List Char) : Decidable (SpellsNoBar text) :=
  inferInstanceAs (Decidable (['o', 'r'] ∉ wordRuns text))

private theorem bar_mem_ofRun {run : List Char} : Token.bar ∈ ofRun run ↔ run = ['o', 'r'] := by
  unfold ofRun
  split
  · simp
  · simp
  · rename_i notBar
    simpa using notBar

private theorem ofMark_inline {c : Char} (plain : isInline c = true) : ofMark c = [.other c] := by
  simp only [isInline, Bool.and_eq_true, Bool.not_eq_true', bne_iff_ne, ne_eq] at plain
  simp [ofMark, plain]

private theorem wordRuns_scan {text : List Char} (plain : ∀ c ∈ text, isInline c = true) :
    ∃ later, wordRuns text = (scan text).1 :: later ∧
      (Token.bar ∈ (scan text).2 ↔ ['o', 'r'] ∈ later) := by
  induction text with
  | nil => exact ⟨[], rfl, by simp [scan]⟩
  | cons c rest inductionHypothesis =>
      obtain ⟨later, runs, bars⟩ :=
        inductionHypothesis fun d member => plain d (List.mem_cons_of_mem c member)
      rw [scan, wordRuns, List.splitOnP_cons_eq_if_modifyHead, ← wordRuns, runs]
      by_cases inWord : isWordChar c = true
      · exact ⟨later, by simp [inWord], by simpa [inWord] using bars⟩
      · refine ⟨(scan rest).1 :: later, by simp [inWord], ?_⟩
        rw [ofMark_inline (plain c List.mem_cons_self)]
        simp [inWord, bar_mem_ofRun, bars, eq_comm]

/-- In inline text only the word `or` is read as a bar. -/
theorem bar_mem_ofText {text : List Char} (plain : ∀ c ∈ text, isInline c = true) :
    Token.bar ∈ ofText text ↔ ¬ SpellsNoBar text := by
  obtain ⟨later, runs, bars⟩ := wordRuns_scan plain
  rw [ofText, List.mem_append, bar_mem_ofRun, bars, SpellsNoBar, runs, not_not, List.mem_cons]
  exact or_congr_left eq_comm

/-! ## From tokens back to text -/

/-- A token of a value expression: a word or some other character. -/
def isPlain : Token → Bool
  | .word _ => true
  | .other _ => true
  | _ => false

private theorem text_of_mem_ofRun {run : List Char} {token : Token} (member : token ∈ ofRun run)
    (notBar : token ≠ .bar) : token.text = run := by
  unfold ofRun at member
  split at member
  · exact absurd member List.not_mem_nil
  · exact absurd (List.mem_singleton.mp member) notBar
  · rw [List.mem_singleton.mp member]
    rfl

private theorem text_of_mem_ofMark {c : Char} {token : Token} (member : token ∈ ofMark c)
    (notBar : token ≠ .bar) : token.text = [c] := by
  unfold ofMark at member
  split at member
  · rw [List.mem_singleton.mp member]
    simp_all [text]
  split at member
  · rw [List.mem_singleton.mp member]
    simp_all [text]
  split at member
  · exact absurd (List.mem_singleton.mp member) notBar
  split at member
  · exact absurd member List.not_mem_nil
  · rw [List.mem_singleton.mp member]
    rfl

private theorem scan_mem (input : List Char) :
    (∀ c ∈ (scan input).1, c ∈ input) ∧
      ∀ token ∈ (scan input).2, token ≠ .bar → ∀ c ∈ token.text, c ∈ input := by
  induction input with
  | nil => simp [scan]
  | cons head rest inductionHypothesis =>
      obtain ⟨run, later⟩ := inductionHypothesis
      rw [scan]
      by_cases inWord : isWordChar head = true
      · simp only [if_pos inWord]
        refine ⟨?_, fun token member notBar c inText =>
          List.mem_cons_of_mem head (later token member notBar c inText)⟩
        intro c member
        rcases List.mem_cons.mp member with rfl | member
        · exact List.mem_cons_self
        · exact List.mem_cons_of_mem head (run c member)
      · simp only [if_neg inWord]
        refine ⟨by simp, ?_⟩
        intro token member notBar c inText
        rcases List.mem_append.mp member with front | inLater
        · rcases List.mem_append.mp front with inMark | inRun
          · rw [text_of_mem_ofMark inMark notBar] at inText
            rw [List.mem_singleton.mp inText]
            exact List.mem_cons_self
          · rw [text_of_mem_ofRun inRun notBar] at inText
            exact List.mem_cons_of_mem head (run c inText)
        · exact List.mem_cons_of_mem head (later token inLater notBar c inText)

/-- The characters that a token stands for are characters of the text, unless it is a bar,
which has two spellings. -/
theorem mem_of_mem_text {input : List Char} {token : Token} (member : token ∈ ofText input)
    (notBar : token ≠ .bar) {c : Char} (inText : c ∈ token.text) : c ∈ input := by
  rcases List.mem_append.mp member with inRun | inLater
  · rw [text_of_mem_ofRun inRun notBar] at inText
    exact (scan_mem input).1 c inText
  · exact (scan_mem input).2 token inLater notBar c inText

/-- Inline text without a bar has only words and other characters. -/
theorem isPlain_of_mem_ofText {input : List Char} (plain : ∀ c ∈ input, isInline c = true)
    (noBar : SpellsNoBar input) {token : Token} (member : token ∈ ofText input) :
    token.isPlain = true := by
  cases token with
  | word letters => rfl
  | other c => rfl
  | bar => exact absurd ((bar_mem_ofText plain).mp member) (not_not_intro noBar)
  | opening =>
      have present : '(' ∈ input := mem_of_mem_text member (by simp) List.mem_cons_self
      exact absurd (plain '(' present) (by decide)
  | closing =>
      have present : ')' ∈ input := mem_of_mem_text member (by simp) List.mem_cons_self
      exact absurd (plain ')' present) (by decide)

private theorem ofRun_text {run : List Char} (notBar : run ≠ ['o', 'r']) :
    (ofRun run).flatMap text = run := by
  cases run with
  | nil => rfl
  | cons c rest => simp [ofRun_of_ne (List.cons_ne_nil c rest) notBar, text]

private theorem scan_text {input : List Char} (plain : ∀ c ∈ input, isInline c = true)
    (noBar : Token.bar ∉ (scan input).2) :
    (scan input).1 ++ (scan input).2.flatMap text = input := by
  induction input with
  | nil => rfl
  | cons c rest inductionHypothesis =>
      have plainRest : ∀ d ∈ rest, isInline d = true :=
        fun d member => plain d (List.mem_cons_of_mem c member)
      rw [scan] at noBar ⊢
      by_cases inWord : isWordChar c = true
      · simp only [if_pos inWord] at noBar ⊢
        rw [List.cons_append, inductionHypothesis plainRest noBar]
      · simp only [if_neg inWord, List.mem_append, not_or, bar_mem_ofRun] at noBar ⊢
        obtain ⟨⟨-, notBar⟩, later⟩ := noBar
        rw [ofMark_inline (plain c List.mem_cons_self), List.flatMap_append, List.flatMap_append,
          ofRun_text notBar, List.nil_append, List.append_assoc,
          inductionHypothesis plainRest later]
        rfl

/-- Inline text without a bar is what its tokens stand for. -/
theorem flatMap_text_ofText {input : List Char} (plain : ∀ c ∈ input, isInline c = true)
    (noBar : SpellsNoBar input) : (ofText input).flatMap text = input := by
  have absent : Token.bar ∉ ofText input := by
    rw [bar_mem_ofText plain]
    exact not_not_intro noBar
  simp only [ofText, List.mem_append, not_or, bar_mem_ofRun] at absent
  rw [ofText, List.flatMap_append, ofRun_text absent.1, scan_text plain absent.2]

end TypeStub.Token
