import TypeStub.Json.Reader

/-!
Contract: the writing of JSON values, which the reader undoes.

Owns:
- the tokens of a value, and that the machine for values gives the value back;
- the spelling of tokens, and that the machine for tokens gives the token back;
- `Json.written?`, the text of a value without numbers.
-/

namespace TypeStub.Json

/-! ## Values -/

mutual

/-- The tokens of a value. -/
def tokens : Json → List Token
  | .null => [.scalar .null]
  | .bool value => [.scalar (.bool value)]
  | .number value => [.scalar (.number value)]
  | .text value => [.text value]
  | .array items => .openBracket :: (tokensOfItems items ++ [.closeBracket])
  | .object fields => .openBrace :: (tokensOfFields fields ++ [.closeBrace])

/-- The tokens of an array's items, the first of which stands behind no comma. -/
def tokensOfItems : List Json → List Token
  | [] => []
  | head :: tail => tokens head ++ tokensOfLaterItems tail

/-- The tokens of items, each behind a comma. -/
def tokensOfLaterItems : List Json → List Token
  | [] => []
  | head :: tail => .comma :: (tokens head ++ tokensOfLaterItems tail)

/-- The tokens of an object's fields, the first of which stands behind no comma. -/
def tokensOfFields : List (Option String × Json) → List Token
  | [] => []
  | (name, value) :: tail => .text name :: .colon :: (tokens value ++ tokensOfLaterFields tail)

/-- The tokens of fields, each behind a comma. -/
def tokensOfLaterFields : List (Option String × Json) → List Token
  | [] => []
  | (name, value) :: tail =>
      .comma :: .text name :: .colon :: (tokens value ++ tokensOfLaterFields tail)

end

/-- A value can begin in the state, for what the frames hold. -/
def Awaits (stack : List Frame) (state : State) : Prop :=
  ∀ token, token ≠ .closeBracket → step state token = begin? stack token

theorem awaits_value (stack : List Frame) : Awaits stack (.value stack) :=
  fun _ _ => rfl

theorem awaits_firstItem (stack : List Frame) : Awaits (.array [] :: stack) (.firstItem stack) := by
  intro token isStart
  cases token <;> first | rfl | exact absurd rfl isStart

theorem run_scalar {token : Token} {json : Json} {stack : List Frame} {state : State}
    (awaits : Awaits stack state) (isStart : token ≠ .closeBracket)
    (begins : begin? stack token = supply json stack) :
    [token].foldlM step state = supply json stack := by
  rw [List.foldlM_cons, awaits token isStart, begins]
  exact bind_pure _

-- Over the tree; the first item of an array begins in a state of its own, which `Awaits` covers.
mutual

/-- Where a value can begin, its tokens put it into the innermost frame. -/
theorem run_tokens : ∀ (json : Json) {stack : List Frame} {state : State}, Awaits stack state →
    (tokens json).foldlM step state = supply json stack
  | .null, stack, state, awaits => by
      rw [tokens]
      exact run_scalar awaits nofun rfl
  | .bool value, stack, state, awaits => by
      rw [tokens]
      exact run_scalar awaits nofun rfl
  | .number value, stack, state, awaits => by
      rw [tokens]
      exact run_scalar awaits nofun rfl
  | .text value, stack, state, awaits => by
      rw [tokens]
      exact run_scalar awaits nofun rfl
  | .array items, stack, state, awaits => by
      have opens : step state .openBracket = some (.firstItem stack) := awaits .openBracket nofun
      rw [tokens, List.foldlM_cons, opens]
      cases items with
      | nil => simp [tokensOfItems, step]
      | cons head tail =>
          have first : (tokens head).foldlM step (.firstItem stack) =
              some (.between (.array [head]) stack) := run_tokens head (awaits_firstItem stack)
          have later := run_tokensOfLaterItems tail [head] stack
          simp [tokensOfItems, List.foldlM_append, first, later, step]
  | .object fields, stack, state, awaits => by
      have opens : step state .openBrace = some (.firstName stack) := awaits .openBrace nofun
      rw [tokens, List.foldlM_cons, opens]
      cases fields with
      | nil => simp [tokensOfFields, step]
      | cons head tail =>
          obtain ⟨name, value⟩ := head
          have first : (tokens value).foldlM step (.value (.field name [] :: stack)) =
              some (.between (.object [(name, value)]) stack) :=
            run_tokens value (awaits_value _)
          have later := run_tokensOfLaterFields tail [(name, value)] stack
          simp [tokensOfFields, List.foldlM_append, first, later, step]

theorem run_tokensOfLaterItems : ∀ (items before : List Json) (stack : List Frame),
    (tokensOfLaterItems items).foldlM step (.between (.array before) stack) =
      some (.between (.array (items.reverse ++ before)) stack)
  | [], before, stack => by
      rw [tokensOfLaterItems]
      rfl
  | head :: tail, before, stack => by
      have first : (tokens head).foldlM step (.value (.array before :: stack)) =
          some (.between (.array (head :: before)) stack) := run_tokens head (awaits_value _)
      have later := run_tokensOfLaterItems tail (head :: before) stack
      simp [tokensOfLaterItems, List.foldlM_append, first, later, step]

theorem run_tokensOfLaterFields : ∀ (fields before : List (Option String × Json))
    (stack : List Frame),
    (tokensOfLaterFields fields).foldlM step (.between (.object before) stack) =
      some (.between (.object (fields.reverse ++ before)) stack)
  | [], before, stack => by
      rw [tokensOfLaterFields]
      rfl
  | (name, value) :: tail, before, stack => by
      have first : (tokens value).foldlM step (.value (.field name before :: stack)) =
          some (.between (.object ((name, value) :: before)) stack) :=
        run_tokens value (awaits_value _)
      have later := run_tokensOfLaterFields tail ((name, value) :: before) stack
      simp [tokensOfLaterFields, List.foldlM_append, first, later, step]

end

theorem ofTokens?_tokens (json : Json) : ofTokens? (tokens json) = some json := by
  rw [ofTokens?, run_tokens json (awaits_value [])]
  rfl

/-! ## Tokens -/

/-- The digit of a number below 16. -/
def hexDigit (value : Nat) : Char :=
  Nat.digitChar value

/-- A character in a string, escaped where it has to be. -/
def spellChar (c : Char) : List Char :=
  if c = '"' ∨ c = '\\' then ['\\', c]
  else if c.toNat < 0x20 then
    ['\\', 'u', '0', '0', hexDigit (c.toNat / 16), hexDigit (c.toNat % 16)]
  else [c]

/-- The spelling of a token, with a space behind a word. Numbers are not spelled. -/
def Token.spelling? : Token → Option (List Char)
  | .openBrace => some ['{']
  | .closeBrace => some ['}']
  | .openBracket => some ['[']
  | .closeBracket => some [']']
  | .colon => some [':']
  | .comma => some [',']
  | .text (some content) => some ('"' :: (content.toList.flatMap spellChar ++ ['"']))
  | .scalar .null => some "null ".toList
  | .scalar (.bool true) => some "true ".toList
  | .scalar (.bool false) => some "false ".toList
  | _ => none

private theorem hexDigit?_hexDigit : ∀ value < 16, hexDigit? (hexDigit value) = some value := by
  decide

theorem run_spellChar (c : Char) (units : List Nat) (before : List Token) :
    (spellChar c).foldlM lexStep (.quoted units, before) =
      some (.quoted (c.toNat :: units), before) := by
  unfold spellChar
  split
  · rename_i isMark
    rcases isMark with rfl | rfl <;> rfl
  split
  · rename_i isControl
    -- The first two digits are zeros, as the code is below 256.
    have high := hexDigit?_hexDigit (c.toNat / 16) (by omega)
    have low := hexDigit?_hexDigit (c.toNat % 16) (by omega)
    have whole : c.toNat / 16 * 16 + c.toNat % 16 = c.toNat := Nat.div_add_mod' _ _
    have zero : hexDigit? '0' = some 0 := rfl
    simp [lexStep, zero, high, low, whole]
  · rename_i isPlain isPrintable
    simp only [not_or] at isPlain
    simp [lexStep, isPlain, isPrintable]

theorem run_spellChars (chars : List Char) (units : List Nat) (before : List Token) :
    (chars.flatMap spellChar).foldlM lexStep (.quoted units, before) =
      some (.quoted ((chars.map Char.toNat).reverse ++ units), before) := by
  induction chars generalizing units with
  | nil => rfl
  | cons c rest inductionHypothesis =>
      rw [List.flatMap_cons, List.foldlM_append, run_spellChar]
      simp [inductionHypothesis]

private theorem isNoSurrogate (c : Char) : c.toNat < 0xD800 ∨ 0xDFFF < c.toNat := by
  rcases c.valid with below | ⟨above, -⟩
  · exact .inl below
  · exact .inr above

/-- Characters stand for themselves among the units of a string. -/
theorem ofUnits_map_toNat (chars read : List Char) :
    ofUnits read (chars.map Char.toNat) = some (String.ofList (read.reverse ++ chars)) := by
  induction chars generalizing read with
  | nil => simp [ofUnits]
  | cons c rest inductionHypothesis =>
      have notAny : ¬(0xD800 ≤ c.toNat ∧ c.toNat ≤ 0xDFFF) := by
        have whole := isNoSurrogate c
        omega
      have notHigh : ¬(0xD800 ≤ c.toNat ∧ c.toNat ≤ 0xDBFF) := by omega
      have notLow : ¬(0xDC00 ≤ c.toNat ∧ c.toNat ≤ 0xDFFF) := by omega
      cases rest with
      | nil =>
          rw [List.map_cons, List.map_nil, ofUnits, if_neg notAny, Char.ofNat_toNat,
            List.reverse_cons]
      | cons next rest =>
          have later := inductionHypothesis (c :: read)
          rw [List.map_cons] at later
          rw [List.map_cons, List.map_cons, ofUnits, if_neg notHigh, if_neg notLow,
            Char.ofNat_toNat, later]
          simp

theorem run_spelling {token : Token} {chars : List Char} (spelled : token.spelling? = some chars)
    (before : List Token) :
    chars.foldlM lexStep (.between, before) = some (.between, token :: before) := by
  unfold Token.spelling? at spelled
  split at spelled
  case h_7 content =>
    have ofContent := ofUnits_map_toNat content.toList []
    have body := run_spellChars content.toList [] before
    cases spelled
    simp [List.foldlM_append, lexStep, lexMark, body, ofContent]
  all_goals cases spelled
  all_goals rfl

theorem run_spellings {run : List Token} {spellings : List (List Char)}
    (spelled : run.mapM Token.spelling? = some spellings) (before : List Token) :
    spellings.flatten.foldlM lexStep (.between, before) =
      some (.between, run.reverse ++ before) := by
  induction run generalizing spellings before with
  | nil =>
      cases spelled
      rfl
  | cons token rest inductionHypothesis =>
      rw [List.mapM_cons] at spelled
      obtain ⟨first, ofToken, others⟩ := Option.bind_eq_some_iff.mp spelled
      obtain ⟨later, ofRest, whole⟩ := Option.bind_eq_some_iff.mp others
      cases whole
      rw [List.flatten_cons, List.foldlM_append, run_spelling ofToken]
      simp [inductionHypothesis ofRest]

/-! ## Texts -/

/-- The text of a value. A value with a number in it, or with a string that is no text, has
none here. -/
def written? (json : Json) : Option String :=
  ((tokens json).mapM Token.spelling?).map fun spellings => String.ofList spellings.flatten

/-- What is written is read. -/
theorem read?_written {json : Json} {text : String} (isWritten : written? json = some text) :
    read? text = some json := by
  obtain ⟨spellings, spelled, rfl⟩ := Option.map_eq_some_iff.mp isWritten
  have lexed : lex? (String.ofList spellings.flatten).toList = some (tokens json) := by
    rw [String.toList_ofList, lex?, run_spellings spelled]
    simp
  rw [read?, lexed, Option.bind_some, ofTokens?_tokens]

/-- The value is made of texts and truth values alone. -/
inductive IsPlain : Json → Prop
  | text (content : String) : IsPlain (.text (some content))
  | bool (value : Bool) : IsPlain (.bool value)
  | array {items : List Json} (plain : ∀ item ∈ items, IsPlain item) : IsPlain (.array items)
  | object {fields : List (Option String × Json)} (named : ∀ field ∈ fields, field.1.isSome = true)
      (plain : ∀ field ∈ fields, IsPlain field.2) : IsPlain (.object fields)

/-- All of the tokens can be spelled. -/
def AreSpelled (run : List Token) : Prop :=
  ∀ token ∈ run, token.spelling?.isSome = true

theorem AreSpelled.append {front back : List Token} (ofFront : AreSpelled front)
    (ofBack : AreSpelled back) : AreSpelled (front ++ back) :=
  List.forall_mem_append.mpr ⟨ofFront, ofBack⟩

theorem AreSpelled.cons {token : Token} {rest : List Token}
    (ofToken : token.spelling?.isSome = true) (ofRest : AreSpelled rest) :
    AreSpelled (token :: rest) :=
  List.forall_mem_cons.mpr ⟨ofToken, ofRest⟩

theorem areSpelled_tokensOfLaterItems {items : List Json}
    (spelled : ∀ item ∈ items, AreSpelled (tokens item)) :
    AreSpelled (tokensOfLaterItems items) := by
  induction items with
  | nil => exact List.forall_mem_nil _
  | cons head tail inductionHypothesis =>
      obtain ⟨ofHead, ofTail⟩ := List.forall_mem_cons.mp spelled
      rw [tokensOfLaterItems]
      exact .cons rfl (ofHead.append (inductionHypothesis ofTail))

theorem areSpelled_tokensOfLaterFields {fields : List (Option String × Json)}
    (named : ∀ field ∈ fields, field.1.isSome = true)
    (spelled : ∀ field ∈ fields, AreSpelled (tokens field.2)) :
    AreSpelled (tokensOfLaterFields fields) := by
  induction fields with
  | nil => exact List.forall_mem_nil _
  | cons head tail inductionHypothesis =>
      obtain ⟨name, value⟩ := head
      obtain ⟨hasName, namedTail⟩ := List.forall_mem_cons.mp named
      obtain ⟨ofHead, ofTail⟩ := List.forall_mem_cons.mp spelled
      obtain ⟨found, rfl⟩ := Option.isSome_iff_exists.mp hasName
      rw [tokensOfLaterFields]
      exact .cons rfl (.cons rfl (.cons rfl (ofHead.append (inductionHypothesis namedTail ofTail))))

theorem IsPlain.areSpelled {json : Json} (plain : IsPlain json) : AreSpelled (tokens json) := by
  induction plain with
  | text content =>
      rw [tokens]
      exact .cons rfl (List.forall_mem_nil _)
  | bool value =>
      rw [tokens]
      cases value <;> exact .cons rfl (List.forall_mem_nil _)
  | @array items plain inductionHypothesis =>
      rw [tokens]
      refine .cons rfl (.append ?_ (.cons rfl (List.forall_mem_nil _)))
      cases items with
      | nil => exact List.forall_mem_nil _
      | cons head tail =>
          have later := areSpelled_tokensOfLaterItems inductionHypothesis
          rw [tokensOfLaterItems] at later
          rw [tokensOfItems]
          exact (List.forall_mem_cons.mp later).2
  | @object fields named plain inductionHypothesis =>
      rw [tokens]
      refine .cons rfl (.append ?_ (.cons rfl (List.forall_mem_nil _)))
      cases fields with
      | nil => exact List.forall_mem_nil _
      | cons head tail =>
          have later := areSpelled_tokensOfLaterFields named inductionHypothesis
          rw [tokensOfLaterFields] at later
          rw [tokensOfFields]
          exact (List.forall_mem_cons.mp later).2

/-- A plain value has a text. -/
theorem IsPlain.exists_written {json : Json} (plain : IsPlain json) :
    ∃ text, written? json = some text := by
  have spelled := plain.areSpelled
  unfold written?
  generalize tokens json = run at spelled
  have found : ∃ spellings, run.mapM Token.spelling? = some spellings := by
    induction run with
    | nil => exact ⟨[], rfl⟩
    | cons token rest inductionHypothesis =>
        obtain ⟨ofToken, ofRest⟩ := List.forall_mem_cons.mp spelled
        obtain ⟨first, isFirst⟩ := Option.isSome_iff_exists.mp ofToken
        obtain ⟨later, isLater⟩ := inductionHypothesis ofRest
        exact ⟨first :: later, by simp [List.mapM_cons, isFirst, isLater]⟩
  obtain ⟨spellings, isFound⟩ := found
  exact ⟨_, by rw [isFound]; rfl⟩

end TypeStub.Json
