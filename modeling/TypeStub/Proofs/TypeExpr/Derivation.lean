import TypeStub.Proofs.TypeExpr.Lexeme

/-!
Contract: derivations of value expressions, and what a reading leaves with its caller.

Owns:
- `Value.Derivation`, the derivations of the grammar `Atom ('[' Expr (',' Expr)* [','] ']')*`, with
  the lexemes at their leaves and the tree that they stand for;
- `Derivation.eq_of_lexemes`, that lexemes have one derivation at most;
- `Value.parseInto`, the reader as a step on a set of namespaces, which notes names on a set
  of its own and hands them over at the end;
- `Value.parse_decides`, the texts that are read, what they are read as and which namespaces the
  caller has afterwards.

`Spells` leaves open where an expression ends, which a derivation does not. What makes the
derivation unique is that no expression goes on behind its own end except with an opening bracket.
-/

namespace TypeStub.Value

open Malformed (Reason)

/-! ## Derivations -/

/-- What an expression begins with. -/
inductive Atom where
  | name (text : List Char) (complete : Dotted.isComplete text = true)
  | literal (text : List Char)

def Atom.lexeme : Atom → Lexeme
  | .name text _ => .identifier text
  | .literal text => .literal text

def Atom.tree : Atom → TypeExpr
  | .name text _ => .name (String.ofList text)
  | .literal text => .literal (String.ofList text)

mutual

/-- An atom with the argument lists behind it. -/
inductive Derivation where
  | mk (atom : Atom) (behind : Subscripts)

/-- Argument lists in brackets, one behind another, each perhaps with a comma at its end. -/
inductive Subscripts where
  | none
  | more (arguments : ArgumentList) (trailing : Bool) (later : Subscripts)

/-- One argument or more, a comma between neighbours. -/
inductive ArgumentList where
  | last (only : Derivation)
  | more (first : Derivation) (later : ArgumentList)

end

mutual

/-- The lexemes at the leaves, in order. -/
def Derivation.lexemes : Derivation → List Lexeme
  | .mk atom behind => atom.lexeme :: behind.lexemes

def Subscripts.lexemes : Subscripts → List Lexeme
  | .none => []
  | .more arguments trailing later =>
      .mark .openBracket ::
        (arguments.lexemes ++ (trailingComma trailing ++ .mark .closeBracket :: later.lexemes))

def ArgumentList.lexemes : ArgumentList → List Lexeme
  | .last only => only.lexemes
  | .more first later => first.lexemes ++ .mark .comma :: later.lexemes

end

mutual

/-- The expression that is derived. -/
def Derivation.tree : Derivation → TypeExpr
  | .mk atom behind => behind.on atom.tree

/-- Argument lists nest to the left: the first one belongs to the base alone. -/
def Subscripts.on : Subscripts → TypeExpr → TypeExpr
  | .none, base => base
  | .more arguments _ later, base => later.on (.subscript base arguments.trees)

def ArgumentList.trees : ArgumentList → List TypeExpr
  | .last only => [only.tree]
  | .more first later => first.tree :: later.trees

end

theorem Derivation.lexemes_ne_close (d : Derivation) (rest other : List Lexeme) :
    d.lexemes ++ rest ≠ .mark .closeBracket :: other := by
  obtain ⟨atom, behind⟩ := d
  cases atom <;> simp [Derivation.lexemes, Atom.lexeme]

theorem ArgumentList.lexemes_ne_close (arguments : ArgumentList) (rest other : List Lexeme) :
    arguments.lexemes ++ rest ≠ .mark .closeBracket :: other := by
  cases arguments with
  | last only => exact only.lexemes_ne_close rest other
  | more first later =>
      rw [ArgumentList.lexemes, List.append_assoc]
      exact first.lexemes_ne_close _ other

theorem Atom.eq_of_lexeme {left right : Atom} (same : left.lexeme = right.lexeme) :
    left = right := by
  cases left <;> cases right <;> cases same <;> rfl

/-! ## Lexemes have one derivation at most -/

/-- No argument list opens here. -/
def Ends (rest : List Lexeme) : Prop :=
  rest.head? ≠ some (.mark .openBracket)

theorem ends_trailing (trailing : Bool) (rest : List Lexeme) :
    Ends (trailingComma trailing ++ .mark .closeBracket :: rest) := by
  cases trailing <;> simp [Ends, trailingComma]

theorem ends_comma (rest : List Lexeme) : Ends (.mark .comma :: rest) := by
  simp [Ends]

theorem trailing_inj {left right : Bool} {behind other : List Lexeme}
    (same : trailingComma left ++ .mark .closeBracket :: behind =
      trailingComma right ++ .mark .closeBracket :: other) : left = right ∧ behind = other := by
  cases left with
  | false => cases right <;> simp_all [trailingComma]
  | true => cases right <;> simp_all [trailingComma]

theorem ArgumentList.trailing_ne_more (arguments : ArgumentList) (trailing : Bool)
    (behind rest : List Lexeme) :
    trailingComma trailing ++ .mark .closeBracket :: behind ≠
      .mark .comma :: (arguments.lexemes ++ rest) := by
  cases trailing with
  | false => simp [trailingComma]
  | true =>
      intro same
      exact arguments.lexemes_ne_close rest behind (List.cons.inj same).2.symm

mutual

/-- Of a list of lexemes, a derivation that no argument list follows takes a fixed part. -/
theorem Derivation.eq_of_append : (left right : Derivation) → {behind other : List Lexeme} →
    Ends behind → Ends other → left.lexemes ++ behind = right.lexemes ++ other →
    left = right ∧ behind = other
  | .mk leftAtom leftBehind, .mk rightAtom rightBehind, behind, other, ends, otherEnds, same => by
      rw [Derivation.lexemes, Derivation.lexemes, List.cons_append, List.cons_append] at same
      obtain ⟨sameAtom, rest⟩ := List.cons.inj same
      obtain ⟨rfl, rfl⟩ := leftBehind.eq_of_append rightBehind ends otherEnds rest
      exact ⟨by rw [Atom.eq_of_lexeme sameAtom], rfl⟩

theorem Subscripts.eq_of_append : (left right : Subscripts) → {behind other : List Lexeme} →
    Ends behind → Ends other → left.lexemes ++ behind = right.lexemes ++ other →
    left = right ∧ behind = other
  | .none, .none, _, _, _, _, same => ⟨rfl, same⟩
  -- If only one side goes on, the bracket with which it does stands first behind the other.
  | .none, .more arguments trailing later, behind, other, ends, _, same => by
      apply absurd _ ends
      rw [show behind = _ from same, Subscripts.lexemes, List.cons_append, List.head?_cons]
  | .more arguments trailing later, .none, behind, other, _, otherEnds, same => by
      apply absurd _ otherEnds
      rw [show other = _ from same.symm, Subscripts.lexemes, List.cons_append, List.head?_cons]
  | .more leftArguments leftTrailing leftLater, .more rightArguments rightTrailing rightLater,
      behind, other, ends, otherEnds, same => by
      simp only [Subscripts.lexemes, List.cons_append, List.append_assoc, List.cons.injEq,
        true_and] at same
      obtain ⟨rfl, rfl, rest⟩ := leftArguments.eq_of_append rightArguments same
      obtain ⟨rfl, rfl⟩ := leftLater.eq_of_append rightLater ends otherEnds rest
      exact ⟨rfl, rfl⟩

theorem ArgumentList.eq_of_append : (left right : ArgumentList) →
    {leftTrailing rightTrailing : Bool} → {behind other : List Lexeme} →
    left.lexemes ++ (trailingComma leftTrailing ++ .mark .closeBracket :: behind) =
      right.lexemes ++ (trailingComma rightTrailing ++ .mark .closeBracket :: other) →
    left = right ∧ leftTrailing = rightTrailing ∧ behind = other
  | .last left, .last right, leftTrailing, rightTrailing, behind, other, same => by
      obtain ⟨rfl, rest⟩ := left.eq_of_append right (ends_trailing leftTrailing behind)
        (ends_trailing rightTrailing other) same
      exact ⟨rfl, trailing_inj rest⟩
  | .last left, .more right rightLater, leftTrailing, rightTrailing, behind, other, same => by
      rw [ArgumentList.lexemes, ArgumentList.lexemes, List.append_assoc] at same
      obtain ⟨-, rest⟩ := left.eq_of_append right (ends_trailing leftTrailing behind)
        (ends_comma _) same
      exact absurd rest (rightLater.trailing_ne_more leftTrailing behind _)
  | .more left leftLater, .last right, leftTrailing, rightTrailing, behind, other, same => by
      rw [ArgumentList.lexemes, ArgumentList.lexemes, List.append_assoc] at same
      obtain ⟨-, rest⟩ := left.eq_of_append right (ends_comma _)
        (ends_trailing rightTrailing other) same
      exact absurd rest.symm (leftLater.trailing_ne_more rightTrailing other _)
  | .more left leftLater, .more right rightLater, leftTrailing, rightTrailing, behind, other,
      same => by
      rw [ArgumentList.lexemes, ArgumentList.lexemes, List.append_assoc, List.append_assoc] at same
      obtain ⟨rfl, rest⟩ := left.eq_of_append right (ends_comma _) (ends_comma _) same
      obtain ⟨rfl, sameEnd⟩ := leftLater.eq_of_append rightLater (List.cons.inj rest).2
      exact ⟨rfl, sameEnd⟩

end

theorem Derivation.eq_of_lexemes {left right : Derivation}
    (same : left.lexemes = right.lexemes) : left = right := by
  have ended : Ends [] := by simp [Ends]
  apply (left.eq_of_append right ended ended _).1
  rw [same]

/-! ## The grammar is that of the derivations -/

mutual

theorem Derivation.spells : (d : Derivation) → Spells d.lexemes d.tree
  | .mk (.name _ complete) behind => behind.spells (.name complete)
  | .mk (.literal _) behind => behind.spells .literal

theorem Subscripts.spells : (subscripts : Subscripts) → {front : List Lexeme} →
    {base : TypeExpr} → Spells front base →
    Spells (front ++ subscripts.lexemes) (subscripts.on base)
  | .none, front, base, ofBase => by
      rw [Subscripts.lexemes, List.append_nil, Subscripts.on]
      exact ofBase
  | .more arguments trailing later, front, base, ofBase => by
      obtain ⟨entries, nonempty, joined, trees, ofEntries⟩ := arguments.spells
      have subscripted := later.spells (.subscript trailing ofBase nonempty ofEntries)
      rw [joined, trees] at subscripted
      rw [Subscripts.lexemes, Subscripts.on]
      simpa using subscripted

theorem ArgumentList.spells : (arguments : ArgumentList) →
    ∃ entries : List (List Lexeme × TypeExpr), entries ≠ [] ∧
      joinLexemes (entries.map Prod.fst) = arguments.lexemes ∧
      entries.map Prod.snd = arguments.trees ∧ ∀ entry ∈ entries, Spells entry.1 entry.2
  | .last only => by
      refine ⟨[(only.lexemes, only.tree)], by simp, ?_, rfl, ?_⟩
      · rw [List.map_singleton, joinLexemes_singleton, ArgumentList.lexemes]
      · simpa using only.spells
  | .more first later => by
      obtain ⟨entries, nonempty, joined, trees, ofEntries⟩ := later.spells
      refine ⟨(first.lexemes, first.tree) :: entries, by simp, ?_, ?_, ?_⟩
      · have moreLexemes : entries.map Prod.fst ≠ [] := by simpa using nonempty
        rw [List.map_cons, joinLexemes_cons _ moreLexemes, joined, ArgumentList.lexemes]
      · rw [List.map_cons, trees, ArgumentList.trees]
      · exact List.forall_mem_cons.mpr ⟨first.spells, ofEntries⟩

end

/-- One more argument list behind those that are there. -/
def Subscripts.concat (arguments : ArgumentList) (trailing : Bool) : Subscripts → Subscripts
  | .none => .more arguments trailing .none
  | .more first firstTrailing later =>
      .more first firstTrailing (later.concat arguments trailing)

theorem Subscripts.lexemes_concat (arguments : ArgumentList) (trailing : Bool) :
    (subscripts : Subscripts) → (subscripts.concat arguments trailing).lexemes =
      subscripts.lexemes ++ .mark .openBracket ::
        (arguments.lexemes ++ (trailingComma trailing ++ [.mark .closeBracket]))
  | .none => rfl
  | .more first firstTrailing later => by
      simp [Subscripts.concat, Subscripts.lexemes, later.lexemes_concat arguments trailing]

theorem Subscripts.on_concat (arguments : ArgumentList) (trailing : Bool) :
    (subscripts : Subscripts) → (base : TypeExpr) →
    (subscripts.concat arguments trailing).on base =
      .subscript (subscripts.on base) arguments.trees
  | .none, _ => rfl
  | .more first _ later, base =>
      later.on_concat arguments trailing (.subscript base first.trees)

theorem exists_argumentList {entries : List (List Lexeme × TypeExpr)} (nonempty : entries ≠ [])
    (derived : ∀ entry ∈ entries, ∃ d : Derivation, d.lexemes = entry.1 ∧ d.tree = entry.2) :
    ∃ arguments : ArgumentList, arguments.lexemes = joinLexemes (entries.map Prod.fst) ∧
      arguments.trees = entries.map Prod.snd := by
  induction entries with
  | nil => exact absurd rfl nonempty
  | cons head tail inductionHypothesis =>
      obtain ⟨⟨d, ofLexemes, ofTree⟩, ofTail⟩ := List.forall_mem_cons.mp derived
      cases tail with
      | nil =>
          refine ⟨.last d, ?_, ?_⟩
          · rw [ArgumentList.lexemes, ofLexemes, List.map_singleton, joinLexemes_singleton]
          · rw [ArgumentList.trees, ofTree, List.map_singleton]
      | cons second others =>
          obtain ⟨later, laterLexemes, laterTrees⟩ :=
            inductionHypothesis (List.cons_ne_nil second others) ofTail
          refine ⟨.more d later, ?_, ?_⟩
          · rw [ArgumentList.lexemes, ofLexemes, laterLexemes]
            exact (joinLexemes_cons head.1 (by simp)).symm
          · rw [ArgumentList.trees, ofTree, laterTrees]
            rfl

theorem exists_derivation {lexemes : List Lexeme} {e : TypeExpr} (spelled : Spells lexemes e) :
    ∃ d : Derivation, d.lexemes = lexemes ∧ d.tree = e := by
  induction spelled with
  | @name text complete => exact ⟨.mk (.name text complete) .none, rfl, rfl⟩
  | @literal text => exact ⟨.mk (.literal text) .none, rfl, rfl⟩
  | @subscript front base entries trailing ofBase nonempty ofEntries baseHypothesis
      inductionHypothesis =>
      obtain ⟨⟨atom, behind⟩, rfl, rfl⟩ := baseHypothesis
      obtain ⟨arguments, joined, trees⟩ := exists_argumentList nonempty inductionHypothesis
      refine ⟨.mk atom (behind.concat arguments trailing), ?_, ?_⟩
      · rw [Derivation.lexemes, behind.lexemes_concat, joined, Derivation.lexemes,
          List.cons_append]
      · rw [Derivation.tree, behind.on_concat, trees, Derivation.tree]

/-! ## Names noted on the way -/

mutual

/-- `operand` with the namespaces as a state. A reader that gives up leaves in it what it has
noted so far. -/
def noteOperand (frames : List Frame) (noted : NameSet) :
    List Lexeme → Except Reason TypeExpr × NameSet
  | [] => (.error .missingExpression, noted)
  | .identifier text :: rest =>
      if Dotted.isComplete text then
        noteSuffix frames (noted ∪ Dotted.namespaceOf text) (.name (String.ofList text)) rest
      else (.error (.invalidName (String.ofList text)), noted)
  | .literal text :: rest => noteSuffix frames noted (.literal (String.ofList text)) rest
  | .mark mark :: _ => (.error (.unexpectedMark mark), noted)

/-- `suffix` with the namespaces as a state. -/
def noteSuffix (frames : List Frame) (noted : NameSet) (expr : TypeExpr) :
    List Lexeme → Except Reason TypeExpr × NameSet
  | .mark .openBracket :: rest => noteOperand (⟨expr, []⟩ :: frames) noted rest
  | .mark .closeBracket :: rest =>
      match frames with
      | [] => (.error .surplus, noted)
      | frame :: outer => noteSuffix outer noted (frame.close expr) rest
  | .mark .comma :: .mark .closeBracket :: rest =>
      match frames with
      | [] => (.error .surplus, noted)
      | frame :: outer => noteSuffix outer noted (frame.close expr) rest
  | .mark .comma :: rest =>
      match frames with
      | [] => (.error .surplus, noted)
      | frame :: outer => noteOperand (⟨frame.base, expr :: frame.earlier⟩ :: outer) noted rest
  | [] => (if frames.isEmpty then .ok expr else .error .unclosedBracket, noted)
  | _ :: _ => (.error (if frames.isEmpty then .surplus else .unclosedBracket), noted)

end

/-- A reading that succeeds, with what it has noted. -/
def keep (outcome : Except Reason TypeExpr × NameSet) : Except Reason (Resolved TypeExpr) :=
  outcome.1.map fun e => ⟨e, outcome.2⟩

mutual

theorem keep_noteOperand : (frames : List Frame) → (found : NameSet) → (lexemes : List Lexeme) →
    keep (noteOperand frames found lexemes) = operand frames found lexemes
  | _, _, [] => rfl
  | frames, found, .identifier text :: rest => by
      rw [noteOperand, operand]
      split
      · exact keep_noteSuffix frames _ _ rest
      · rfl
  | frames, found, .literal text :: rest => keep_noteSuffix frames found _ rest
  | _, _, .mark _ :: _ => rfl

theorem keep_noteSuffix : (frames : List Frame) → (found : NameSet) → (e : TypeExpr) →
    (lexemes : List Lexeme) →
    keep (noteSuffix frames found e lexemes) = suffix frames found e lexemes
  | frames, found, e, .mark .openBracket :: rest => keep_noteOperand (⟨e, []⟩ :: frames) found rest
  | [], _, _, .mark .closeBracket :: _ => rfl
  | frame :: outer, found, e, .mark .closeBracket :: rest =>
      keep_noteSuffix outer found (frame.close e) rest
  | frames, found, e, .mark .comma :: rest => by
      by_cases closes : rest.head? = some (.mark .closeBracket)
      · obtain ⟨later, rfl⟩ := List.head?_eq_some_iff.mp closes
        cases frames with
        | nil => rfl
        | cons frame outer => exact keep_noteSuffix outer found (frame.close e) later
      · have more : ∀ later, rest = .mark .closeBracket :: later → False := by
          rintro later rfl
          exact closes rfl
        cases frames with
        | nil =>
            rw [noteSuffix, suffix]
            · rfl
            · exact more
            · exact more
        | cons frame outer =>
            rw [noteSuffix, suffix]
            · exact keep_noteOperand (⟨frame.base, e :: frame.earlier⟩ :: outer) found rest
            · exact more
            · exact more
  | [], _, _, [] => rfl
  | _ :: _, _, _, [] => rfl
  | [], _, _, .identifier _ :: _ => rfl
  | _ :: _, _, _, .identifier _ :: _ => rfl
  | [], _, _, .literal _ :: _ => rfl
  | _ :: _, _, _, .literal _ :: _ => rfl

end

/-- The reader as a step on the namespaces that its caller has collected. It notes names on a
set of its own, which is added to theirs when the whole text is read. -/
def parseInto (collected : NameSet) (text : List Char) : Except Reason TypeExpr × NameSet :=
  match lex text with
  | .error reason => (.error reason, collected)
  | .ok lexemes =>
      match noteOperand [] ∅ lexemes with
      | (.error reason, _) => (.error reason, collected)
      | (.ok e, noted) => (.ok e, collected ∪ noted)

theorem parseInto_eq (collected : NameSet) (text : List Char) :
    parseInto collected text =
      match parse text with
      | .error reason => (.error reason, collected)
      | .ok found => (.ok found.value, collected ∪ found.namespaces) := by
  unfold parseInto parse
  cases lex text with
  | error reason => rfl
  | ok lexemes =>
      dsimp only
      rw [read, ← keep_noteOperand]
      obtain ⟨outcome, noted⟩ := noteOperand [] ∅ lexemes
      cases outcome <;> rfl

/-- A reading that fails behind a dotted name has noted a namespace. -/
example : (noteOperand [] ∅ [.identifier "os.path".toList, .mark .openBracket]).2 =
    NameSet.ofList ["os"] := by
  decide

/-! ## What is read -/

theorem parse_eq_ok_iff {text : List Char} {found : Resolved TypeExpr} :
    parse text = .ok found ↔
      ∃ d : Derivation, lex text = .ok d.lexemes ∧ d.tree = found.value ∧
        found.namespaces = found.value.namespaces := by
  constructor
  · intro accepted
    unfold parse at accepted
    cases lexed : lex text with
    | error reason =>
        rw [lexed] at accepted
        cases accepted
    | ok lexemes =>
        rw [lexed] at accepted
        obtain ⟨spelled, names⟩ := read_eq_ok_iff.mp accepted
        obtain ⟨d, rfl, ofTree⟩ := exists_derivation spelled
        exact ⟨d, rfl, ofTree, names⟩
  · rintro ⟨d, lexed, ofTree, names⟩
    rw [parse, lexed]
    apply read_eq_ok_iff.mpr
    rw [← ofTree] at names ⊢
    exact ⟨d.spells, names⟩

/-- A text is read when its lexemes have a derivation, which is their only one, and as the tree
of it. The caller gets the namespaces of the tree; when the text is refused, the caller keeps
what it had. -/
theorem parse_decides (text : List Char) :
    (∀ e, (∃ names, parse text = .ok ⟨e, names⟩) ↔
      ∃ d : Derivation, lex text = .ok d.lexemes ∧ d.tree = e ∧
        ∀ other : Derivation, lex text = .ok other.lexemes → other = d) ∧
    (∀ lexemes, lex text = .ok lexemes → lexemes.flatMap Lexeme.text = text) ∧
    (∀ collected e names, parse text = .ok ⟨e, names⟩ →
      parseInto collected text = (.ok e, collected ∪ e.namespaces)) ∧
    ∀ collected reason, parse text = .error reason →
      parseInto collected text = (.error reason, collected) := by
  refine ⟨fun e => ⟨?_, ?_⟩, fun lexemes lexed => (text_of_lex lexed).1, ?_, ?_⟩
  · rintro ⟨names, accepted⟩
    obtain ⟨d, lexed, ofTree, -⟩ := parse_eq_ok_iff.mp accepted
    refine ⟨d, lexed, ofTree, fun other otherLexed => ?_⟩
    rw [lexed] at otherLexed
    exact Derivation.eq_of_lexemes (Except.ok.inj otherLexed).symm
  · rintro ⟨d, lexed, ofTree, -⟩
    exact ⟨e.namespaces, parse_eq_ok_iff.mpr ⟨d, lexed, ofTree, rfl⟩⟩
  · intro collected e names accepted
    obtain ⟨-, -, -, ofTree⟩ := parse_eq_ok_iff.mp accepted
    rw [parseInto_eq, accepted]
    exact congrArg (fun names => (Except.ok e, collected ∪ names)) ofTree
  · intro collected reason refused
    rw [parseInto_eq, refused]

theorem parse_decides_pathGroups :
    (∃ d : Derivation, lex "os.path[int,][1]".toList = .ok d.lexemes ∧
      d.tree = .subscript (.subscript (.name "os.path") [.name "int"]) [.literal "1"]) ∧
    lex "os.path[".toList = .ok [.identifier "os.path".toList, .mark .openBracket] ∧
    parse "os.path[".toList = .error .missingExpression ∧
    parseInto (NameSet.ofList ["typing"]) "os.path[".toList =
      (.error .missingExpression, NameSet.ofList ["typing"]) := by
  have path : lex "os.path".toList = .ok [.identifier "os.path".toList] :=
    lex_of_takes (.identifier rfl)
  have int : lex "int".toList = .ok [.identifier "int".toList] := lex_of_takes (.identifier rfl)
  have one : lex ['1'] = .ok [.literal ['1']] := lex_of_takes (.number rfl)
  have second := lex_append_mark lex_nil .openBracket (lex_append_mark one .closeBracket lex_nil)
  have first := lex_append_mark int .comma (lex_append_mark lex_nil .closeBracket second)
  have whole := lex_append_mark path .openBracket first
  have accepted : parse "os.path[int,][1]".toList =
      .ok ⟨.subscript (.subscript (.name "os.path") [.name "int"]) [.literal "1"],
        NameSet.ofList ["os"]⟩ := by
    rw [parse, show lex "os.path[int,][1]".toList = _ from whole]
    rfl
  have divided : lex "os.path[".toList =
      .ok [.identifier "os.path".toList, .mark .openBracket] :=
    lex_append_mark path .openBracket lex_nil
  have refused : parse "os.path[".toList = .error .missingExpression := by
    rw [parse, divided]
    rfl
  obtain ⟨decides, -, -, -⟩ := parse_decides "os.path[int,][1]".toList
  obtain ⟨-, -, -, keeps⟩ := parse_decides "os.path[".toList
  obtain ⟨d, lexed, ofTree, -⟩ := (decides _).mp ⟨_, accepted⟩
  exact ⟨⟨d, lexed, ofTree⟩, divided, refused, keeps _ _ refused⟩

end TypeStub.Value
