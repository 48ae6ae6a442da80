import TypeStub.Proofs.Text.Line

/-!
Contract: patterns that are searched for in a text of several rows.

Owns:
- `RowPattern`, pieces that match characters greedily or lazily, with anchors at the ends of a row,
  and `RowPattern.scan`, the matches in a text from the left and without overlap;
- `RowPattern.Fills`, what the rest of a pattern finds in the rest of a row, whatever text follows,
  with a lemma for each piece;
- `RowPattern.matchesIn_eq_rows`: the search for a pattern that fills rows is a search in each row.

Does not own: the patterns of directives (`TypeStub.Proofs.Documentation.Pattern`).

Of several matches at a position, the first one is taken that trying the choices of the pieces in
their order of preference comes to.
-/

namespace TypeStub.Text

namespace RowPattern

/-- A part of a match that is kept. -/
inductive Group where
  /-- The name of a parameter. -/
  | name
  /-- The expression or description at the end. -/
  | said

structure Captures where
  name : List Char
  said : List Char
deriving DecidableEq, Repr

def Captures.add (c : Char) : (group : Option Group) → Captures → Captures
  | none, captures => captures
  | some .name, captures => { captures with name := c :: captures.name }
  | some .said, captures => { captures with said := c :: captures.said }

/-- A match of `width` characters. -/
structure Found where
  captures : Captures
  width : Nat
deriving DecidableEq, Repr

/-- The match with one more character in front, which belongs to the group. -/
def Found.add (c : Char) (group : Option Group) (found : Found) : Found :=
  ⟨found.captures.add c group, found.width + 1⟩

/-- The first match at a position of a text, from the character before it, if there is one, and
the text behind it. -/
abbrev Matcher :=
  (before : Option Char) → (text : List Char) → Option Found

/-- What a pattern is made of. Pieces that match characters know them by kind. -/
inductive Piece where
  /-- The beginning of a row, that is, of the text or behind a line feed. -/
  | rowStart
  /-- The end of a row, that is, of the text or before a line feed. -/
  | rowEnd
  /-- One character. -/
  | one (kind : Char → Bool)
  /-- Any number of characters, preferably many. -/
  | many (kind : Char → Bool)
  /-- Any number of characters, preferably few. -/
  | few (kind : Char → Bool)

section

variable (group : Option Group) (kind : Char → Bool) (next : Matcher)

def one : Matcher
  | _, [] => none
  | _, c :: later => if kind c then (next (some c) later).map (Found.add c group) else none

/-- As many characters as what `next` has to match behind them allows. -/
def many : Matcher
  | before, [] => next before []
  | before, c :: later =>
      (if kind c then (many (some c) later).map (Found.add c group) else none).or
        (next before (c :: later))

/-- As few characters as what `next` has to match behind them allows. -/
def few : Matcher
  | before, [] => next before []
  | before, c :: later =>
      (next before (c :: later)).or
        (if kind c then (few (some c) later).map (Found.add c group) else none)

end

def Piece.run (group : Option Group) (next : Matcher) : Piece → Matcher
  | .rowStart => fun before text => if before.all (· == '\n') then next before text else none
  | .rowEnd => fun before text => if text.head?.all (· == '\n') then next before text else none
  | .one kind => RowPattern.one group kind next
  | .many kind => RowPattern.many group kind next
  | .few kind => RowPattern.few group kind next

end RowPattern

/-- Pieces one behind another, each with the group that it belongs to. -/
abbrev RowPattern := List (Option RowPattern.Group × RowPattern.Piece)

namespace RowPattern

/-- The first match of a pattern at a position. -/
def first? : RowPattern → Matcher
  | [] => fun _ _ => some ⟨⟨[], []⟩, 0⟩
  | (group, piece) :: pattern => piece.run group (first? pattern)

/-- The matches in a text, each searched for behind the one before. `skip` characters belong to
a match that is found already. -/
def scan (matcher : Matcher) (skip : Nat) (before : Option Char) : (text : List Char) → List Found
  | [] => (matcher before []).toList
  | c :: later =>
      match skip with
      | skipped + 1 => scan matcher skipped (some c) later
      | 0 =>
          match matcher before (c :: later) with
          | some found => found :: scan matcher (found.width - 1) (some c) later
          | none => scan matcher 0 (some c) later

def matchesIn (pattern : RowPattern) (text : List Char) : List Captures :=
  (scan (first? pattern) 0 none text).map Found.captures

def literal (text : List Char) : RowPattern :=
  text.map fun expected => (none, .one (expected == ·))

/-! ## What a pattern finds in a row -/

/-- The matcher finds what `read` finds in the rest of a row, and takes all of that rest, but
nothing of what follows the row. -/
def Fills (matcher : Matcher) (read : List Char → Option Captures) : Prop :=
  ∀ before row behind, '\n' ∉ row → behind.head?.all (· == '\n') = true →
    matcher before (row ++ behind) = (read row).map (⟨·, row.length⟩)

section

variable {group : Option Group} {kind : Char → Bool} {pattern : RowPattern}
  {read : List Char → Option Captures}

theorem Fills.congr {matcher : Matcher} {other : List Char → Option Captures}
    (fills : Fills matcher read) (same : ∀ row, '\n' ∉ row → read row = other row) :
    Fills matcher other := by
  intro before row behind free ends
  rw [fills before row behind free ends, same row free]

private theorem stops_behind (noFeed : kind '\n' = false) {c : Char} {later : List Char}
    (ends : (c :: later).head?.all (· == '\n') = true) : kind c = false := by
  have isFeed : c = '\n' := by simpa using ends
  rwa [isFeed]

theorem fills_rowEnd :
    Fills (first? [(none, .rowEnd)]) fun row => if row.isEmpty then some ⟨[], []⟩ else none := by
  intro before row behind free ends
  cases row with
  | nil => simp [first?, Piece.run, ends]
  | cons c row =>
      have stays : c ≠ '\n' := (List.ne_of_not_mem_cons free).symm
      simp [first?, Piece.run, stays]

def readOne (group : Option Group) (kind : Char → Bool) (read : List Char → Option Captures) :
    List Char → Option Captures
  | [] => none
  | c :: row => if kind c then (read row).map (Captures.add c group) else none

theorem fills_one (noFeed : kind '\n' = false) (fills : Fills (first? pattern) read) :
    Fills (first? ((group, .one kind) :: pattern)) (readOne group kind read) := by
  intro before row behind free ends
  change one group kind (first? pattern) before (row ++ behind) = _
  cases row with
  | nil =>
      cases behind with
      | nil => rfl
      | cons c later => simp [one, readOne, stops_behind noFeed ends]
  | cons c row =>
      have found := fills (some c) row behind (List.not_mem_of_not_mem_cons free) ends
      rw [List.cons_append, one, found, readOne]
      split
      · cases read row <;> rfl
      · rfl

def readFew (group : Option Group) (kind : Char → Bool) (read : List Char → Option Captures) :
    List Char → Option Captures
  | [] => read []
  | c :: row =>
      (read (c :: row)).or
        (if kind c then (readFew group kind read row).map (Captures.add c group) else none)

theorem fills_few (noFeed : kind '\n' = false) (fills : Fills (first? pattern) read) :
    Fills (first? ((group, .few kind) :: pattern)) (readFew group kind read) := by
  intro before row behind free ends
  change few group kind (first? pattern) before (row ++ behind) = _
  induction row generalizing before with
  | nil =>
      have found := fills before [] behind free ends
      cases behind with
      | nil => exact found
      | cons c later => simpa [few, readFew, stops_behind noFeed ends] using found
  | cons c row inductionHypothesis =>
      have found := fills before (c :: row) behind free ends
      have further := inductionHypothesis (some c) (List.not_mem_of_not_mem_cons free)
      rw [List.cons_append] at found
      rw [List.cons_append, few, found, further, readFew]
      cases read (c :: row) with
      | some captures => rfl
      | none =>
          split
          · cases readFew group kind read row <;> rfl
          · rfl

/-- All the characters of the kind that the row begins with are taken, never fewer. -/
def readMany (group : Option Group) (kind : Char → Bool) (read : List Char → Option Captures)
    (row : List Char) : Option Captures :=
  (read (row.dropWhile kind)).map fun captures =>
    (row.takeWhile kind).foldr (Captures.add · group) captures

theorem readMany_cons_of_pos {c : Char} (ofKind : kind c = true) (row : List Char) :
    readMany group kind read (c :: row) =
      (readMany group kind read row).map (Captures.add c group) := by
  rw [readMany, readMany, List.dropWhile_cons_of_pos ofKind, List.takeWhile_cons_of_pos ofKind,
    Option.map_map]
  rfl

theorem readMany_of_stops {row : List Char} (stops : ∀ c ∈ row.head?, kind c = false) :
    readMany group kind read row = read row := by
  have nothing : row.takeWhile kind = [] := by
    cases row with
    | nil => rfl
    | cons c row => exact List.takeWhile_cons_of_neg (by simp [stops c rfl])
  rw [readMany, nothing, dropWhile_of_begins stops]
  exact Option.map_id_apply

/-- No way back is tried with success: what is found behind fewer characters of the kind is found
behind all of them first. -/
theorem fills_many (noFeed : kind '\n' = false) (fills : Fills (first? pattern) read)
    (all : ∀ row, read (row.dropWhile kind) = none → read row = none) :
    Fills (first? ((group, .many kind) :: pattern)) (readMany group kind read) := by
  intro before row behind free ends
  change many group kind (first? pattern) before (row ++ behind) = _
  induction row generalizing before with
  | nil =>
      have found := fills before [] behind free ends
      rw [readMany_of_stops (by simp)]
      cases behind with
      | nil => exact found
      | cons c later => simpa [many, stops_behind noFeed ends] using found
  | cons c row inductionHypothesis =>
      have found := fills before (c :: row) behind free ends
      have further := inductionHypothesis (some c) (List.not_mem_of_not_mem_cons free)
      rw [List.cons_append] at found
      rw [List.cons_append, many, found, further]
      cases ofKind : kind c with
      | false =>
          have stops : ∀ first ∈ (c :: row).head?, kind first = false := by simp [ofKind]
          rw [readMany_of_stops stops]
          rfl
      | true =>
          rw [readMany_cons_of_pos ofKind]
          cases rest : readMany group kind read row with
          | none =>
              -- The one way back from here is to stop before this character.
              have nothing := all (c :: row)
              rw [List.dropWhile_cons_of_pos ofKind] at nothing
              rw [nothing (Option.map_eq_none_iff.mp rest)]
              rfl
          | some captures => rfl

theorem fills_many_of_refuses (noFeed : kind '\n' = false) (fills : Fills (first? pattern) read)
    (refuses : ∀ c row, kind c = true → read (c :: row) = none) :
    Fills (first? ((group, .many kind) :: pattern)) (readMany group kind read) := by
  refine fills_many noFeed fills ?_
  intro row nothing
  cases row with
  | nil => exact nothing
  | cons c row =>
      cases ofKind : kind c with
      | false => rwa [List.dropWhile_cons_of_neg (by simp [ofKind])] at nothing
      | true => exact refuses c row ofKind

/-- What belongs to no group leaves no trace. -/
theorem readMany_none (row : List Char) :
    readMany none kind read row = read (row.dropWhile kind) := by
  have same : ∀ (text : List Char) captures,
      text.foldr (Captures.add · none) captures = captures := by
    intro text captures
    induction text with
    | nil => rfl
    | cons c text inductionHypothesis => exact inductionHypothesis
  simp only [readMany, same]
  exact Option.map_id_apply

theorem readMany_name (row : List Char) :
    readMany (some .name) kind read row =
      (read (row.dropWhile kind)).map fun captures =>
        ⟨row.takeWhile kind ++ captures.name, captures.said⟩ := by
  have same : ∀ (text : List Char) captures,
      text.foldr (Captures.add · (some .name)) captures =
        ⟨text ++ captures.name, captures.said⟩ := by
    intro text captures
    induction text with
    | nil => rfl
    | cons c text inductionHypothesis =>
        rw [List.foldr_cons, inductionHypothesis]
        rfl
  simp only [readMany, same]

end

/-! ## Searching a text row by row -/

section

variable {matcher : Matcher} {read : List Char → Option Captures}

def OnlyAtRowStart (matcher : Matcher) : Prop :=
  ∀ before text, before ≠ '\n' → matcher (some before) text = none

/-- What is found behind the end of a row. -/
def scanBehind (matcher : Matcher) : List Char → List Found
  | [] => []
  | feed :: later => scan matcher 0 (some feed) later

theorem scan_inside (only : OnlyAtRowStart matcher) {row behind : List Char} (noFeed : '\n' ∉ row)
    {skip : Nat} (within : skip ≤ row.length) {before : Char} (inside : before ≠ '\n') :
    scan matcher skip (some before) (row ++ behind) = scanBehind matcher behind := by
  -- Whether the rest of the row belongs to a match or not, it is passed over.
  induction row generalizing skip before with
  | nil =>
      obtain rfl := Nat.le_zero.mp within
      cases behind <;> simp [scan, scanBehind, only before _ inside]
  | cons c row inductionHypothesis =>
      have stays : c ≠ '\n' := (List.ne_of_not_mem_cons noFeed).symm
      have free : '\n' ∉ row := List.not_mem_of_not_mem_cons noFeed
      cases skip with
      | zero => simpa [scan, only before _ inside] using
          inductionHypothesis free (Nat.zero_le row.length) stays
      | succ skipped => exact inductionHypothesis free (Nat.le_of_succ_le_succ within) stays

/-- One match at its start is all that a row can have. -/
theorem scan_row (only : OnlyAtRowStart matcher) {before : Option Char}
    {row behind : List Char} (noFeed : '\n' ∉ row)
    (found : matcher before (row ++ behind) = (read row).map (⟨·, row.length⟩)) :
    scan matcher 0 before (row ++ behind) =
      ((read row).map (⟨·, row.length⟩)).toList ++ scanBehind matcher behind := by
  cases row with
  | nil =>
      cases behind with
      | nil => simpa [scan, scanBehind] using congrArg Option.toList found
      | cons feed later =>
          rw [List.nil_append] at found
          rw [List.nil_append, scan, found]
          cases read [] <;> rfl
  | cons c row =>
      have stays : c ≠ '\n' := (List.ne_of_not_mem_cons noFeed).symm
      have free : '\n' ∉ row := List.not_mem_of_not_mem_cons noFeed
      rw [List.cons_append] at found
      rw [List.cons_append, scan, found]
      cases read (c :: row) with
      | none => exact scan_inside only free (Nat.zero_le row.length) stays
      | some captures =>
          exact congrArg _ (scan_inside only free (Nat.le_refl row.length) stays)

/-- A pattern that begins at the start of a row and fills the row is found row by row. -/
theorem scan_unrows {pattern : RowPattern} (fills : Fills (first? pattern) read)
    {all : List (List Char)} (noFeed : ∀ row ∈ all, '\n' ∉ row) (nonempty : all ≠ [])
    (before : Option Char) (starts : before.all (· == '\n') = true) :
    scan (first? ((none, .rowStart) :: pattern)) 0 before (unrows all) =
      all.filterMap fun row => (read row).map (⟨·, row.length⟩) := by
  have only : OnlyAtRowStart (first? ((none, .rowStart) :: pattern)) := by
    intro before text inside
    simp [first?, Piece.run, inside]
  induction all generalizing before with
  | nil => exact absurd rfl nonempty
  | cons row later inductionHypothesis =>
      obtain ⟨ofRow, ofLater⟩ := List.forall_mem_cons.mp noFeed
      have found : ∀ behind : List Char, behind.head?.all (· == '\n') = true →
          first? ((none, .rowStart) :: pattern) before (row ++ behind) =
            (read row).map (⟨·, row.length⟩) := by
        intro behind ends
        rw [← fills before row behind ofRow ends]
        exact if_pos starts
      cases later with
      | nil =>
          have ofLast := scan_row only ofRow (found [] rfl)
          rw [List.append_nil] at ofLast
          rw [unrows, List.intercalate_singleton, ofLast, List.filterMap_cons, List.filterMap_nil]
          cases read row <;> rfl
      | cons second others =>
          have ofRest :=
            inductionHypothesis ofLater (List.cons_ne_nil second others) (some '\n') rfl
          rw [unrows, List.intercalate_cons_cons, List.append_assoc, scan_row only ofRow
            (found _ rfl), List.filterMap_cons]
          cases read row with
          | none => exact ofRest
          | some captures => exact congrArg _ ofRest

theorem matchesIn_eq_rows {pattern : RowPattern} (fills : Fills (first? pattern) read)
    (text : List Char) :
    matchesIn ((none, .rowStart) :: pattern) text = (rows text).filterMap read := by
  have found := scan_unrows fills (fun row member => feed_not_mem_rows member)
    (List.splitOn_ne_nil '\n' text) none rfl
  rw [unrows_rows] at found
  rw [matchesIn, found, List.map_filterMap]
  apply List.filterMap_congr
  intro row _
  cases read row <;> rfl

end

end RowPattern

end TypeStub.Text
