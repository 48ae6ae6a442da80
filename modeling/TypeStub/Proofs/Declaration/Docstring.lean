import TypeStub.Declaration.Docstring

/-!
Contract: the literal of a documentation text reads back as that text.

Owns:
- `readLiteral`, a reader of string literals between triple quotes;
- `indentAfterFeeds`, what indentation does to the value of a literal;
- `literal_reads_back`, which ties both to `Docstring.literal`.

Escaping works from both ends of a text: triples are taken from the left, and the last
character is looked at first. `escapeOnward` is the same escaping from left to right, which
is what a reader follows.
-/

namespace TypeStub.Docstring

open Text

/-! ## Reading literals -/

/-- Read the body of a literal up to the first delimiter outside escapes: its value, and
what follows the delimiter. A backslash stands before a backslash or a quote and nowhere
else. -/
def readBody : List Char → Option (List Char × List Char)
  | '"' :: '"' :: '"' :: after => some ([], after)
  | '\\' :: '\\' :: rest => (readBody rest).map fun found => ('\\' :: found.1, found.2)
  | '\\' :: '"' :: rest => (readBody rest).map fun found => ('"' :: found.1, found.2)
  | '\\' :: _ => none
  | c :: rest => (readBody rest).map fun found => (c :: found.1, found.2)
  | [] => none

/-- Read a literal between triple quotes: its value, and what follows it. -/
def readLiteral : List Char → Option (List Char × List Char)
  | '"' :: '"' :: '"' :: body => readBody body
  | _ => none

/-! ## Indentation -/

/-- The line that the text begins with has at least one character. -/
def beginsInLine : List Char → Bool
  | [] => false
  | c :: _ => c != '\n'

/-- The text with the indentation after each line feed that a line with characters
follows. -/
def indentAfterFeeds (indent : List Char) : List Char → List Char
  | [] => []
  | c :: rest =>
      c :: ((if c = '\n' ∧ beginsInLine rest = true then indent else []) ++
        indentAfterFeeds indent rest)

theorem indentAfterFeeds_of_ne {c : Char} (inLine : c ≠ '\n') (indent rest : List Char) :
    indentAfterFeeds indent (c :: rest) = c :: indentAfterFeeds indent rest := by
  simp [indentAfterFeeds, inLine]

@[simp] theorem indentAfterFeeds_empty_indent (text : List Char) :
    indentAfterFeeds [] text = text := by
  induction text with
  | nil => rfl
  | cons c rest inductionHypothesis => simp [indentAfterFeeds, inductionHypothesis]

private theorem unrows_cons_cons (first second : List Char) (later : List (List Char)) :
    unrows (first :: second :: later) = first ++ '\n' :: unrows (second :: later) := by
  simp [unrows, List.intercalate_cons_cons]

/-- The first row of a text is empty where the text begins with a line feed or ends. -/
private theorem rows_eq_cons (text : List Char) :
    ∃ first later, rows text = first :: later ∧ first.isEmpty = !beginsInLine text := by
  cases text with
  | nil => exact ⟨[], [], rfl, rfl⟩
  | cons c rest =>
      obtain ⟨first, later, split⟩ := List.exists_cons_of_ne_nil (List.splitOn_ne_nil '\n' rest)
      by_cases feed : c = '\n'
      · refine ⟨[], first :: later, ?_, ?_⟩
        · simp [rows, List.splitOn_cons_eq_if_modifyHead, feed, split]
        · simp [beginsInLine, feed]
      · refine ⟨c :: first, later, ?_, ?_⟩
        · simp [rows, List.splitOn_cons_eq_if_modifyHead, feed, split]
        · simp [beginsInLine, feed]

theorem unrows_indentRows (indent text : List Char) :
    unrows (indentRows indent (rows text)) = indentAfterFeeds indent text := by
  induction text with
  | nil => rfl
  | cons c rest inductionHypothesis =>
      obtain ⟨first, later, split, emptiness⟩ := rows_eq_cons rest
      rw [split] at inductionHypothesis
      by_cases feed : c = '\n'
      · subst feed
        have splitFeed : rows ('\n' :: rest) = [] :: first :: later := by
          rw [← split]
          simp [rows, List.splitOn_cons_eq_if_modifyHead]
        rw [splitFeed]
        simp only [indentRows, List.map_cons, indentAfterFeeds, true_and] at inductionHypothesis ⊢
        rw [unrows_cons_cons, ← inductionHypothesis, emptiness, List.nil_append]
        cases begins : beginsInLine rest with
        | false => simp
        | true => cases later <;> simp [unrows, List.intercalate_cons_cons]
      · have splitLine : rows (c :: rest) = (c :: first) :: later := by
          have modified : rows (c :: rest) = (rows rest).modifyHead (c :: ·) := by
            simp [rows, List.splitOn_cons_eq_if_modifyHead, feed]
          rw [modified, split]
          rfl
        rw [splitLine, indentAfterFeeds_of_ne feed, ← inductionHypothesis]
        cases later <;> simp [unrows, indentRows, List.intercalate_cons_cons]

/-! ## Escaping from left to right -/

/-- The escaped text, taken from left to right: a triple of quotes is escaped if something
follows it, and so is a quote that nothing follows. -/
def escapeOnward : List Char → List Char
  | [] => []
  | ['"'] => ['\\', '"']
  | '"' :: '"' :: '"' :: c :: rest =>
      '\\' :: '"' :: '\\' :: '"' :: '\\' :: '"' :: escapeOnward (c :: rest)
  | '\\' :: rest => '\\' :: '\\' :: escapeOnward rest
  | c :: rest => c :: escapeOnward rest

/-- Escaping of quotes in a text whose backslashes are doubled already. -/
private def escapeQuotes (doubled : List Char) : List Char :=
  if doubled.getLast? = some '"' then escapeTriples doubled.dropLast ++ ['\\', '"']
  else escapeTriples doubled

private theorem escapeTriples_cons {c : Char} {rest : List Char}
    (alone : ∀ later, c = '"' → rest ≠ '"' :: '"' :: later) :
    escapeTriples (c :: rest) = c :: escapeTriples rest := by
  rw [escapeTriples]
  intro later isQuote isPair
  exact alone later isQuote isPair

private theorem escapeQuotes_triple {c : Char} (rest : List Char) :
    escapeQuotes ('"' :: '"' :: '"' :: c :: rest) =
      '\\' :: '"' :: '\\' :: '"' :: '\\' :: '"' :: escapeQuotes (c :: rest) := by
  unfold escapeQuotes
  simp only [List.getLast?_cons_cons, List.dropLast_cons_cons, escapeTriples]
  split <;> rfl

private theorem escapeQuotes_cons_of_ne {c : Char} (other : c ≠ '"') (rest : List Char) :
    escapeQuotes (c :: rest) = c :: escapeQuotes rest := by
  cases rest with
  | nil => simp [escapeQuotes, escapeTriples, other]
  | cons next later =>
      unfold escapeQuotes
      rw [List.getLast?_cons_cons, List.dropLast_cons_cons,
        escapeTriples_cons (fun _ isQuote => absurd isQuote other),
        escapeTriples_cons (fun _ isQuote => absurd isQuote other)]
      split <;> rfl

private theorem escapeQuotes_quote {next : Char} {later : List Char}
    (alone : ∀ c rest, next :: later ≠ '"' :: '"' :: c :: rest) :
    escapeQuotes ('"' :: next :: later) = '"' :: escapeQuotes (next :: later) := by
  unfold escapeQuotes
  rw [List.getLast?_cons_cons, List.dropLast_cons_cons]
  split
  · rename_i ends
    rw [escapeTriples_cons]
    · rfl
    · intro rest _ pair
      match later, pair with
      | [second], pair => simp at pair
      | second :: third :: others, pair =>
          simp only [List.dropLast_cons_cons, List.cons.injEq] at pair
          exact alone third others (by rw [pair.1, pair.2.1])
  · rename_i ends
    rw [escapeTriples_cons]
    intro rest _ pair
    cases rest with
    | nil => exact ends (by rw [pair]; rfl)
    | cons c others => exact alone c others pair

theorem doubleBackslashes_cons_of_ne {c : Char} (other : c ≠ '\\') (rest : List Char) :
    doubleBackslashes (c :: rest) = c :: doubleBackslashes rest := by
  simp [doubleBackslashes, other]

theorem doubleBackslashes_backslash (rest : List Char) :
    doubleBackslashes ('\\' :: rest) = '\\' :: '\\' :: doubleBackslashes rest := by
  simp [doubleBackslashes]

/-- Doubling backslashes neither makes nor removes quotes, so what stands after a quote
looks the same before and after it. -/
private theorem doubled_ne_triple {next : Char} {later : List Char}
    (alone : ∀ c rest, next :: later ≠ '"' :: '"' :: c :: rest) :
    ∃ first others, doubleBackslashes (next :: later) = first :: others ∧
      ∀ c rest, first :: others ≠ '"' :: '"' :: c :: rest := by
  by_cases slash : next = '\\'
  · exact ⟨'\\', '\\' :: doubleBackslashes later, by rw [slash, doubleBackslashes_backslash],
      by simp⟩
  refine ⟨next, doubleBackslashes later, doubleBackslashes_cons_of_ne slash later, ?_⟩
  intro c rest triple
  match later, triple with
  | [], triple => simp [doubleBackslashes] at triple
  | second :: others, triple =>
      by_cases secondSlash : second = '\\'
      · rw [secondSlash, doubleBackslashes_backslash] at triple
        simp at triple
      rw [doubleBackslashes_cons_of_ne secondSlash] at triple
      simp only [List.cons.injEq] at triple
      cases others with
      | nil => simp [doubleBackslashes] at triple
      | cons third final => exact alone third final (by rw [triple.1, triple.2.1])

theorem escape_eq_escapeOnward (text : List Char) : escape text = escapeOnward text := by
  change escapeQuotes (doubleBackslashes text) = escapeOnward text
  fun_induction escapeOnward text with
  | case1 => rfl
  | case2 => rfl
  | case3 c rest inductionHypothesis =>
      have doubled : ∃ first others, doubleBackslashes (c :: rest) = first :: others := by
        by_cases slash : c = '\\'
        · exact ⟨_, _, by rw [slash, doubleBackslashes_backslash]⟩
        · exact ⟨_, _, doubleBackslashes_cons_of_ne slash rest⟩
      obtain ⟨first, others, doubled⟩ := doubled
      rw [doubleBackslashes_cons_of_ne (by decide), doubleBackslashes_cons_of_ne (by decide),
        doubleBackslashes_cons_of_ne (by decide), doubled, escapeQuotes_triple, ← doubled,
        inductionHypothesis]
  | case4 rest inductionHypothesis =>
      rw [doubleBackslashes_backslash, escapeQuotes_cons_of_ne (by decide),
        escapeQuotes_cons_of_ne (by decide), inductionHypothesis]
  | case5 c rest notLast notTriple notSlash inductionHypothesis =>
      rw [doubleBackslashes_cons_of_ne notSlash, ← inductionHypothesis]
      by_cases quote : c = '"'
      · cases rest with
        | nil => exact absurd rfl (notLast quote)
        | cons next later =>
            obtain ⟨first, others, doubled, alone⟩ :=
              doubled_ne_triple (fun d more triple => notTriple d more quote triple)
            rw [doubled, quote, escapeQuotes_quote alone]
      · exact escapeQuotes_cons_of_ne quote _

/-! ## Reading back -/

theorem readBody_cons {c : Char} {rest : List Char} (notSlash : c ≠ '\\')
    (alone : ∀ later, c = '"' → rest ≠ '"' :: '"' :: later) :
    readBody (c :: rest) = (readBody rest).map fun found => (c :: found.1, found.2) := by
  rw [readBody]
  · intro later isQuote isPair
    exact alone later isQuote isPair
  · intro later isSlash
    exact absurd isSlash notSlash
  · intro later isSlash
    exact absurd isSlash notSlash
  · exact notSlash

theorem readBody_spaces {indent : List Char} (spaces : ∀ c ∈ indent, c = ' ')
    (rest : List Char) :
    readBody (indent ++ rest) =
      (readBody rest).map fun found => (indent ++ found.1, found.2) := by
  induction indent with
  | nil => simp
  | cons c later inductionHypothesis =>
      have isSpace : c = ' ' := spaces c List.mem_cons_self
      have laterSpaces : ∀ d ∈ later, d = ' ' :=
        fun d member => spaces d (List.mem_cons_of_mem c member)
      subst isSpace
      rw [List.cons_append, readBody_cons (by decide) (by simp),
        inductionHypothesis laterSpaces, Option.map_map]
      rfl

theorem beginsInLine_escapeOnward (text : List Char) :
    beginsInLine (escapeOnward text) = beginsInLine text := by
  fun_cases escapeOnward text with
  | case1 => rfl
  | case2 => rfl
  | case3 => rfl
  | case4 => rfl
  | case5 => rfl

private theorem escapeOnward_of_ne {c : Char} (notQuote : c ≠ '"') (rest : List Char) :
    ∃ first later, escapeOnward (c :: rest) = first :: later ∧ first ≠ '"' := by
  by_cases slash : c = '\\'
  · exact ⟨'\\', _, by rw [slash, escapeOnward], by decide⟩
  · refine ⟨c, escapeOnward rest, ?_, notQuote⟩
    rw [escapeOnward]
    · exact fun isQuote => absurd isQuote notQuote
    · exact fun _ _ isQuote => absurd isQuote notQuote
    · exact slash

/-- A quote that is neither the last character nor the first of an escaped triple is no
beginning of a delimiter after escaping either. -/
private theorem escapeOnward_not_pair {next : Char} {later : List Char}
    (alone : ∀ c rest, next :: later ≠ '"' :: '"' :: c :: rest) (indent after : List Char) :
    indentAfterFeeds indent (escapeOnward (next :: later)) ++ delimiter ≠
      '"' :: '"' :: after := by
  by_cases quote : next = '"'
  · subst quote
    cases later with
    | nil => simp [escapeOnward, indentAfterFeeds]
    | cons second others =>
        by_cases secondQuote : second = '"'
        · subst secondQuote
          cases others with
          | nil => simp [escapeOnward, indentAfterFeeds]
          | cons c rest => exact absurd rfl (alone c rest)
        · obtain ⟨first, more, escaped, firstNotQuote⟩ := escapeOnward_of_ne secondQuote others
          have step : escapeOnward ('"' :: second :: others) =
              '"' :: escapeOnward (second :: others) := by
            rw [escapeOnward]
            · simp
            · exact fun c rest _ pair => secondQuote (List.cons.inj pair).1
            · decide
          rw [step, escaped]
          simp [indentAfterFeeds, firstNotQuote]
  · obtain ⟨first, more, escaped, firstNotQuote⟩ := escapeOnward_of_ne quote later
    rw [escaped]
    simp [indentAfterFeeds, firstNotQuote]

/-- Up to the delimiter, the escaped and indented text reads back as the indented text. -/
theorem readBody_escapeOnward {indent : List Char} (spaces : ∀ c ∈ indent, c = ' ')
    (text : List Char) :
    readBody (indentAfterFeeds indent (escapeOnward text) ++ delimiter) =
      some (indentAfterFeeds indent text, []) := by
  fun_induction escapeOnward text with
  | case1 => rfl
  | case2 => simp [indentAfterFeeds, readBody, delimiter]
  | case3 c rest inductionHypothesis =>
      simp only [indentAfterFeeds_of_ne (show '"' ≠ '\n' by decide),
        indentAfterFeeds_of_ne (show '\\' ≠ '\n' by decide), List.cons_append, readBody,
        inductionHypothesis, Option.map_some]
  | case4 rest inductionHypothesis =>
      simp only [indentAfterFeeds_of_ne (show '\\' ≠ '\n' by decide), List.cons_append,
        readBody, inductionHypothesis, Option.map_some]
  | case5 c rest notLast notTriple notSlash inductionHypothesis =>
      by_cases feed : c = '\n'
      · -- The indentation behind the line feed has no quote or backslash, so it reads as itself.
        subst feed
        have padSpaces : ∀ d ∈ (if '\n' = '\n' ∧ beginsInLine rest = true then indent else []),
            d = ' ' := by
          intro d member
          split at member
          · exact spaces d member
          · exact absurd member List.not_mem_nil
        rw [indentAfterFeeds, beginsInLine_escapeOnward, indentAfterFeeds, List.cons_append,
          readBody_cons (by decide) (by simp), List.append_assoc, readBody_spaces padSpaces,
          inductionHypothesis]
        rfl
      · have alone : ∀ after, c = '"' →
            indentAfterFeeds indent (escapeOnward rest) ++ delimiter ≠ '"' :: '"' :: after := by
          intro after quote
          cases rest with
          | nil => exact absurd rfl (notLast quote)
          | cons next later =>
              exact escapeOnward_not_pair
                (fun d more triple => notTriple d more quote triple) indent after
        rw [indentAfterFeeds_of_ne feed, indentAfterFeeds_of_ne feed, List.cons_append,
          readBody_cons notSlash alone, inductionHypothesis]
        rfl

/-- The literal of a text stands behind its indentation and ends where the output ends. It
reads back as the text with the indentation after each line feed that a line with
characters follows, hence without indentation as the text itself. -/
theorem literal_reads_back (doc indent : List Char) (spaces : ∀ c ∈ indent, c = ' ') :
    (∃ quoted, literal doc indent = indent ++ quoted ∧
      readLiteral quoted = some (indentAfterFeeds indent doc, [])) ∧
    readLiteral (literal doc []) = some (doc, []) := by
  have body : ∀ width : List Char, (∀ c ∈ width, c = ' ') →
      readLiteral (delimiter ++ unrows (indentRows width (rows (escape doc))) ++ delimiter) =
        some (indentAfterFeeds width doc, []) := by
    intro width widthSpaces
    rw [unrows_indentRows, escape_eq_escapeOnward, List.append_assoc]
    exact readBody_escapeOnward widthSpaces doc
  constructor
  · refine ⟨delimiter ++ unrows (indentRows indent (rows (escape doc))) ++ delimiter, ?_,
      body indent spaces⟩
    simp [literal]
  · have flush := body [] (by simp)
    rw [indentAfterFeeds_empty_indent] at flush
    exact flush

/-- Quotes at both ends, a run of them, a backslash before one, and an empty line between
two others. -/
theorem literal_reads_back_quotes :
    (∀ c ∈ "    ".toList, c = ' ') ∧
      readLiteral ((literal "\"a\\\"\"\"\"\n\nb\"".toList "    ".toList).drop 4) =
        some ("\"a\\\"\"\"\"\n\n    b\"".toList, []) := by
  have spaces : ∀ c ∈ "    ".toList, c = ' ' := by simp
  refine ⟨spaces, ?_⟩
  obtain ⟨⟨quoted, behind, value⟩, -⟩ :=
    literal_reads_back "\"a\\\"\"\"\"\n\nb\"".toList "    ".toList spaces
  have dropped : (literal "\"a\\\"\"\"\"\n\nb\"".toList "    ".toList).drop 4 = quoted := by
    rw [behind]
    rfl
  rw [dropped, value]
  rfl

end TypeStub.Docstring
