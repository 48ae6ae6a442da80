import TypeStub.Proofs.Documentation.Pattern

/-!
Contract: the directives of two texts of which one stands below the other.

Owns:
- that the rows of both are the rows of each;
- the division of such a text into its parts, by the parts of each;
- `directives_stack`: a directive is read in its row, by a search through the whole text too.
-/

namespace TypeStub

open Text

/-- No row goes beyond a line feed. -/
theorem Text.rows_append_feed (above below : List Char) :
    rows (above ++ '\n' :: below) = rows above ++ rows below := by
  have nonempty : ∀ text, rows text ≠ [] := fun text => List.splitOn_ne_nil '\n' text
  have written : above ++ '\n' :: below = unrows (rows above ++ rows below) := by
    rw [unrows_append (nonempty above) (nonempty below), unrows_rows, unrows_rows]
  rw [written]
  apply rows_unrows
  · exact List.forall_mem_append.mpr
      ⟨fun row member => feed_not_mem_rows member, fun row member => feed_not_mem_rows member⟩
  · exact List.append_ne_nil_of_left_ne_nil (nonempty above) _

namespace Documentation

/-- One text, a line feed, and another text. -/
def stack (above below : String) : String :=
  above ++ "\n" ++ below

/-- The number of rows of a kind that a search through the text finds. -/
def matchCount (kind : ReturnDirective) (doc : String) : Nat :=
  (returnMatches kind doc).length

section

variable (above below : String)

theorem rows_stack :
    rows (stack above below).toList = rows above.toList ++ rows below.toList := by
  rw [← rows_append_feed]
  simp [stack]

theorem paramTypes_stack :
    paramTypes (stack above below) = paramTypes above ++ paramTypes below := by
  rw [paramTypes, rows_stack, List.filterMap_append]
  rfl

theorem returnRows_stack (kind : ReturnDirective) :
    returnRows kind (stack above below) = returnRows kind above ++ returnRows kind below := by
  rw [returnRows, rows_stack, List.filterMap_append]
  rfl

theorem matchCount_eq (kind : ReturnDirective) (doc : String) :
    matchCount kind doc = (returnRows kind doc).length := by
  rw [matchCount, returnRows_eq_returnMatches]

theorem matchCount_stack (kind : ReturnDirective) :
    matchCount kind (stack above below) = matchCount kind above + matchCount kind below := by
  rw [matchCount_eq, matchCount_eq, matchCount_eq, returnRows_stack, List.length_append]

end

/-- The ambiguity that is reported is that of the types, if they are given several times. -/
theorem split_eq_error_iff_matchCount {doc : String} {ambiguity : AmbiguousReturn} :
    split doc = .error ambiguity ↔
      (1 < matchCount .rtype doc ∧ ambiguity = ⟨.rtype, matchCount .rtype doc⟩) ∨
        matchCount .rtype doc ≤ 1 ∧ 1 < matchCount .returns doc ∧
          ambiguity = ⟨.returns, matchCount .returns doc⟩ := by
  simp only [split_eq_error_iff, single_eq_error_iff, exists_single_iff, matchCount_eq,
    eq_comm (a := ambiguity)]

theorem exists_split_error_iff {doc : String} :
    (∃ ambiguity, split doc = .error ambiguity) ↔ ∃ kind, 1 < matchCount kind doc := by
  constructor
  · rintro ⟨ambiguity, refused⟩
    rcases split_eq_error_iff_matchCount.mp refused with ⟨several, -⟩ | ⟨-, several, -⟩
    · exact ⟨.rtype, several⟩
    · exact ⟨.returns, several⟩
  · rintro ⟨kind, several⟩
    cases divided : split doc with
    | error ambiguity => exact ⟨ambiguity, rfl⟩
    | ok parts =>
        have unambiguous := exists_split_iff.mp ⟨parts, divided⟩ kind
        rw [← matchCount_eq] at unambiguous
        omega

/-- If two lists hold one item at most, it is in one of them. -/
private theorem append_eq_toList_iff {α : Type} {found : Option α} {front back : List α} :
    front ++ back = found.toList ↔
      ∃ left right, front = left.toList ∧ back = right.toList ∧ (left = none ∨ right = none) ∧
        found = left.or right := by
  constructor
  · intro whole
    cases front with
    | nil => exact ⟨none, found, rfl, whole, .inl rfl, rfl⟩
    | cons item rest =>
        cases found with
        | none => cases whole
        | some only =>
            obtain ⟨rfl, nothing⟩ := List.cons.inj whole
            obtain ⟨rfl, rfl⟩ := List.append_eq_nil_iff.mp nothing
            exact ⟨some item, none, rfl, rfl, .inr rfl, rfl⟩
  · rintro ⟨left, right, rfl, rfl, rfl | rfl, rfl⟩
    · rfl
    · rw [Option.or_none]
      exact List.append_nil _

/-- Two texts divide into their parts one below the other if each does and no row about the value
returned occurs in both. -/
theorem split_stack_eq_ok_iff {above below : String} {parts : Parts} :
    split (stack above below) = .ok parts ↔
      ∃ first second, split above = .ok first ∧ split below = .ok second ∧
        (first.rtype = none ∨ second.rtype = none) ∧
        (first.returnDoc = none ∨ second.returnDoc = none) ∧
        parts = ⟨description (stack above below), first.paramTypes ++ second.paramTypes,
          first.rtype.or second.rtype, first.returnDoc.or second.returnDoc⟩ := by
  simp only [split_eq_ok_iff, paramTypes_stack, returnRows_stack, append_eq_toList_iff]
  constructor
  · obtain ⟨text, types, type, said⟩ := parts
    rintro ⟨rfl, rfl, ⟨firstType, secondType, ofFirst, ofSecond, oneType, rfl⟩,
      ⟨firstSaid, secondSaid, saidFirst, saidSecond, oneSaid, rfl⟩⟩
    exact ⟨⟨description above, paramTypes above, firstType, firstSaid⟩,
      ⟨description below, paramTypes below, secondType, secondSaid⟩,
      ⟨rfl, rfl, ofFirst, saidFirst⟩, ⟨rfl, rfl, ofSecond, saidSecond⟩, oneType, oneSaid, rfl⟩
  · rintro ⟨first, second, ⟨-, firstTypes, ofFirst, saidFirst⟩,
      ⟨-, secondTypes, ofSecond, saidSecond⟩, oneType, oneSaid, rfl⟩
    exact ⟨rfl, by rw [firstTypes, secondTypes], ⟨_, _, ofFirst, ofSecond, oneType, rfl⟩,
      ⟨_, _, saidFirst, saidSecond, oneSaid, rfl⟩⟩

/-- Directives are read line by line, though they are searched for in the whole text: those of two
texts with a line feed between them are those of the one and those of the other. Rows about the
value returned are too many if there are too many in both together. -/
theorem directives_stack (above below : String) :
    (∀ doc, paramTypes doc = typeMatches doc ∧
      ∀ kind, returnRows kind doc = returnMatches kind doc) ∧
    paramTypes (stack above below) = paramTypes above ++ paramTypes below ∧
    (∀ kind, matchCount kind (stack above below) =
      matchCount kind above + matchCount kind below) ∧
    ((∃ ambiguity, split (stack above below) = .error ambiguity) ↔
      ∃ kind, 1 < matchCount kind above + matchCount kind below) ∧
    (∀ ambiguity, split (stack above below) = .error ambiguity ↔
      (1 < matchCount .rtype above + matchCount .rtype below ∧
        ambiguity = ⟨.rtype, matchCount .rtype above + matchCount .rtype below⟩) ∨
      matchCount .rtype above + matchCount .rtype below ≤ 1 ∧
        1 < matchCount .returns above + matchCount .returns below ∧
        ambiguity = ⟨.returns, matchCount .returns above + matchCount .returns below⟩) ∧
    ∀ parts, split (stack above below) = .ok parts →
      ∃ first second, split above = .ok first ∧ split below = .ok second ∧
        (first.rtype = none ∨ second.rtype = none) ∧
        parts.rtype = first.rtype.or second.rtype ∧
        (first.returnDoc = none ∨ second.returnDoc = none) ∧
        parts.returnDoc = first.returnDoc.or second.returnDoc := by
  refine ⟨fun doc => ⟨paramTypes_eq_typeMatches doc,
    fun kind => returnRows_eq_returnMatches kind doc⟩, paramTypes_stack above below,
    matchCount_stack above below, ?_, ?_, ?_⟩
  · simp only [exists_split_error_iff, matchCount_stack]
  · intro ambiguity
    rw [split_eq_error_iff_matchCount, matchCount_stack, matchCount_stack]
  · intro parts divided
    obtain ⟨first, second, ofAbove, ofBelow, oneType, oneSaid, rfl⟩ :=
      split_stack_eq_ok_iff.mp divided
    exact ⟨first, second, ofAbove, ofBelow, oneType, rfl, oneSaid, rfl⟩

end Documentation

end TypeStub
