import TypeStub.Proofs.Outcome
import TypeStub.Proofs.Text.Intercalate
import TypeStub.Proofs.TypeExpr.Node
import TypeStub.Proofs.TypeExpr.Spelling
import TypeStub.TypeExpr.Parser

/-!
Contract: the grammar of type expressions over nodes, and the reader that decides it.

Owns:
- `Sequence.Spells`, the grammar: names, value expressions, generics on the arguments in a
  group, grouped types and choices;
- `Sequence.read_eq_ok_iff` and `TypeExpr.parse_eq_ok_iff`, which say that the reader accepts
  what the grammar derives, with the tree of the derivation and its namespaces;
- that whatever is read is well formed.

The reader computes both readings of every group before it knows which one counts. The
grammar has one rule for each.
-/

namespace TypeStub

open Malformed (Reason)

namespace TypeExpr

/-- The type with the namespaces that a stub using it has to import, and no others. -/
def resolved (e : TypeExpr) : Resolved TypeExpr :=
  ⟨e, e.namespaces⟩

theorem unionAll_namespaces (types : List TypeExpr) :
    NameSet.unionAll (types.map namespaces) = namespacesOfAll types := by
  ext name
  rw [NameSet.mem_unionAll, mem_namespacesOfAll]
  simp

theorem all_resolved (types : List TypeExpr) :
    Resolved.all (types.map resolved) = ⟨types, namespacesOfAll types⟩ := by
  have values : (types.map resolved).map (·.value) = types := by
    rw [List.map_map]
    exact List.map_id types
  have sets : (types.map resolved).map (·.namespaces) = types.map namespaces := by
    rw [List.map_map]
    rfl
  rw [Resolved.all, values, sets, unionAll_namespaces]

end TypeExpr

namespace Node

/-- The node stands between alternatives. -/
def isBar (node : Node) : Bool :=
  node.token? == some .bar

theorem token?_eq_some {node : Node} {single : Token} :
    node.token? = some single ↔ node = .token single := by
  cases node <;> simp [token?]

theorem isBar_iff {node : Node} : node.isBar = true ↔ node = .token .bar := by
  rw [isBar, beq_iff_eq, token?_eq_some]

theorem token?_comma : (Node.token (.other ',')).token? = some (.other ',') :=
  rfl

theorem isBar_bar : (Node.token .bar).isBar = true :=
  rfl

/-- The arguments in a list of nodes, with commas between neighbours, are the nodes. -/
theorem intercalate_split (nodes : List Node) :
    [Node.token (.other ',')].intercalate (Arguments.split token? nodes) = nodes :=
  Arguments.intercalate_splitFrom (fun _ isComma => token?_eq_some.mp isComma) 0 nodes

theorem readings_eq_map (nodes : List Node) : readings nodes = nodes.map reading := by
  induction nodes with
  | nil => rfl
  | cons head tail inductionHypothesis => rw [readings, inductionHypothesis, List.map_cons]

theorem token?_reading (node : Node) : node.reading.token? = node.token? := by
  cases node <;> rfl

theorem isBar_reading (node : Node) : node.reading.isBar = node.isBar := by
  rw [Reading.isBar, token?_reading, isBar]

theorem reading_eq_token {node : Node} {single : Token} :
    node.reading = .token single ↔ node = .token single := by
  cases node <;> simp [reading]

end Node

namespace Sequence

open Node (readings reading)

/-- The nodes spell the type. -/
inductive Spells : List Node → TypeExpr → Prop
  | name {word : List Char} (complete : Dotted.isComplete word = true) :
      Spells [.token (.word word)] (.name (String.ofList word))
  /-- Tokens other than one word make up a value expression. -/
  | value {tokens : List Token} {e : TypeExpr} (noBar : Token.bar ∉ tokens)
      (several : ∀ word, tokens ≠ [.word word])
      (parsed : Value.parse (tokens.flatMap Token.text) = .ok e.resolved) :
      Spells (tokens.map .token) e
  | generic {word : List Char} {ctor : Generic} {inner : List Node}
      {arguments : List (List Node × TypeExpr)}
      (named : Generic.ofDocName? (String.ofList word) = some ctor)
      (taken : ctor.takes arguments.length = true)
      (divided : Arguments.split Node.token? inner = arguments.map Prod.fst)
      (ofArguments : ∀ entry ∈ arguments, Spells entry.1 entry.2) :
      Spells [.token (.word word), .group inner] (.generic ctor (arguments.map Prod.snd))
  | grouped {inner : List Node} {e : TypeExpr} (ofInner : Spells inner e) :
      Spells [.group inner] e
  | union {alternatives : List (List Node × TypeExpr)} (several : 2 ≤ alternatives.length)
      (noBar : ∀ entry ∈ alternatives, ∀ node ∈ entry.1, node.isBar = false)
      (ofAlternatives : ∀ entry ∈ alternatives, Spells entry.1 entry.2) :
      Spells ([Node.token .bar].intercalate (alternatives.map Prod.fst))
        (.union (alternatives.map Prod.snd))

/-! ## Whatever the grammar derives is read -/

theorem parse_nil : Value.parse [] = .error .missingExpression := by
  simp [Value.parse, Value.read, Value.operand]

/-- The reader divides a group as its nodes are divided. -/
theorem split_readings (nodes : List Node) :
    Arguments.split Reading.token? (readings nodes) =
      (Arguments.split Node.token? nodes).map readings := by
  have tokens : Reading.token? ∘ reading = Node.token? := funext Node.token?_reading
  rw [Node.readings_eq_map, Arguments.split, Arguments.splitFrom_map, tokens]
  exact List.map_congr_left fun part _ => (Node.readings_eq_map part).symm

private theorem splitOnP_readings (nodes : List Node) :
    (readings nodes).splitOnP Reading.isBar = (nodes.splitOnP Node.isBar).map readings := by
  have bars : Reading.isBar ∘ reading = Node.isBar := funext Node.isBar_reading
  rw [Node.readings_eq_map, Intercalate.splitOnP_map, bars]
  exact List.map_congr_left fun part _ => (Node.readings_eq_map part).symm

private theorem readings_eq_nil {nodes : List Node} : readings nodes = [] ↔ nodes = [] := by
  rw [Node.readings_eq_map, List.map_eq_nil_iff]

/-- Nodes without a bar are one alternative. -/
private theorem read_of_noBar {nodes : List Node} (nonempty : nodes ≠ [])
    (noBar : ∀ node ∈ nodes, node.isBar = false) :
    read (readings nodes) = alternative (readings nodes) := by
  have nonemptyReadings : readings nodes ≠ [] := fun empty => nonempty (readings_eq_nil.mp empty)
  unfold read
  rw [splitOnP_readings, List.splitOnP_eq_singleton noBar]
  cases single : alternative (readings nodes) with
  | error reason => simp [single, nonemptyReadings, bind, Except.bind]
  | ok found => simp [single, nonemptyReadings, bind, Except.bind, pure, Except.pure]

private theorem joined_tokens (tokens : List Token) :
    joined (readings (tokens.map .token)) = .ok (tokens.flatMap Token.text) := by
  induction tokens with
  | nil => rfl
  | cons head tail inductionHypothesis =>
      simp [readings, reading, joined, inductionHypothesis, Except.map]

theorem readings_tokens (tokens : List Token) :
    readings (tokens.map .token) = tokens.map .token := by
  rw [Node.readings_eq_map, List.map_map]
  rfl

/-- Tokens other than one word are read as a value expression. -/
theorem alternative_tokens {tokens : List Token} (several : ∀ word, tokens ≠ [.word word]) :
    alternative (readings (tokens.map .token)) = Value.parse (tokens.flatMap Token.text) := by
  have joinedOk := joined_tokens tokens
  rw [readings_tokens] at joinedOk ⊢
  unfold alternative
  split
  · rename_i word isWord
    refine absurd ?_ (several word)
    cases tokens with
    | nil => cases isWord
    | cons head tail => simp_all
  · rename_i word alone arguments isGeneric
    cases tokens with
    | nil => cases isGeneric
    | cons head tail => cases tail <;> simp at isGeneric
  · rename_i alone arguments isGroup
    cases tokens <;> simp at isGroup
  · rw [joinedOk]
    rfl

/-- A generic on arguments that are read is read, and an iterator adds its namespace. -/
private theorem ofGeneric_resolved {word : List Char} {ctor : Generic} {arguments : List TypeExpr}
    (named : Generic.ofDocName? (String.ofList word) = some ctor) :
    ofGeneric word (.ok ⟨arguments, TypeExpr.namespacesOfAll arguments⟩) =
      if ctor.takes arguments.length then .ok (TypeExpr.generic ctor arguments).resolved
      else .error (.argumentCount ctor arguments.length) := by
  rw [ofGeneric, named, TypeExpr.resolved, TypeExpr.namespaces]

/-- Lists of nodes that are read one by one are read in a run. -/
private theorem mapM_entries {f : List Reading → Except Reason (Resolved TypeExpr)}
    {entries : List (List Node × TypeExpr)}
    (single : ∀ entry ∈ entries, f (readings entry.1) = .ok entry.2.resolved) :
    ((entries.map Prod.fst).map readings).mapM f =
      .ok ((entries.map Prod.snd).map TypeExpr.resolved) := by
  rw [Outcome.mapM_eq_ok_iff, List.map_map, List.map_map, List.forall₂_map_left_iff,
    List.forall₂_map_right_iff, List.forall₂_same]
  exact single

theorem Spells.ne_nil {nodes : List Node} {e : TypeExpr} (spelled : Spells nodes e) :
    nodes ≠ [] := by
  induction spelled with
  | name => exact List.cons_ne_nil _ _
  | generic => exact List.cons_ne_nil _ _
  | grouped => exact List.cons_ne_nil _ _
  | @value tokens e noBar several parsed =>
      intro empty
      rw [List.map_eq_nil_iff.mp empty, List.flatMap_nil, parse_nil] at parsed
      cases parsed
  | @union alternatives several noBar ofAlternatives inductionHypothesis =>
      exact List.ne_nil_of_mem (Intercalate.separator_mem (by simpa using several))

/-- Several alternatives that are read one by one are read as a union. -/
private theorem read_alternatives {alternatives : List (List Node × TypeExpr)}
    (several : 2 ≤ alternatives.length)
    (noBar : ∀ entry ∈ alternatives, ∀ node ∈ entry.1, node.isBar = false)
    (nonempty : ∀ entry ∈ alternatives, entry.1 ≠ [])
    (single : ∀ entry ∈ alternatives,
      alternative (readings entry.1) = .ok entry.2.resolved) :
    read (readings ([Node.token .bar].intercalate (alternatives.map Prod.fst))) =
      .ok (TypeExpr.union (alternatives.map Prod.snd)).resolved := by
  have divided : ([Node.token .bar].intercalate (alternatives.map Prod.fst)).splitOnP
      Node.isBar = alternatives.map Prod.fst := by
    refine Intercalate.splitOnP_intercalate rfl ?_ ?_
    · intro empty
      rw [List.map_eq_nil_iff.mp empty] at several
      simp at several
    · intro part member
      obtain ⟨entry, inside, rfl⟩ := List.mem_map.mp member
      exact noBar entry inside
  have noneEmpty : ((alternatives.map Prod.fst).map readings).any List.isEmpty = false := by
    rw [List.any_eq_false]
    intro part member
    rw [List.map_map] at member
    obtain ⟨entry, inside, rfl⟩ := List.mem_map.mp member
    simpa [readings_eq_nil] using nonempty entry inside
  simp only [read]
  rw [splitOnP_readings, divided, noneEmpty, mapM_entries single]
  match alternatives, several with
  | first :: second :: others, _ =>
      have joined := TypeExpr.all_resolved ((first :: second :: others).map Prod.snd)
      simp only [List.map_cons] at joined ⊢
      rw [joined]
      rfl

/-- The reader accepts whatever the grammar derives. -/
theorem Spells.read_readings {nodes : List Node} {e : TypeExpr} (spelled : Spells nodes e) :
    read (readings nodes) = .ok e.resolved := by
  induction spelled with
  | @name word complete =>
      rw [read_of_noBar (by simp) (by simp [Node.isBar, Node.token?])]
      change ofWord word = _
      rw [ofWord, if_pos complete, Dotted.resolve, TypeExpr.resolved, TypeExpr.namespaces,
        String.toList_ofList]
  | @value tokens e noBar several parsed =>
      have nonempty := (Spells.value noBar several parsed).ne_nil
      have free : ∀ node ∈ tokens.map Node.token, node.isBar = false := by
        intro node member
        obtain ⟨single, inside, rfl⟩ := List.mem_map.mp member
        have notBar : single ≠ .bar := fun isBar => noBar (isBar ▸ inside)
        simpa [Node.isBar, Node.token?] using notBar
      rw [read_of_noBar nonempty free, alternative_tokens several, parsed]
  | @generic word ctor inner arguments named taken divided ofArguments inductionHypothesis =>
      have ofInner : readArguments (readings inner) =
          .ok ⟨arguments.map Prod.snd, TypeExpr.namespacesOfAll (arguments.map Prod.snd)⟩ := by
        rw [readArguments, split_readings, divided, mapM_entries inductionHypothesis]
        exact congrArg Except.ok (TypeExpr.all_resolved _)
      rw [read_of_noBar (by simp) (by simp [Node.isBar, Node.token?])]
      change ofGeneric word (readArguments (readings inner)) = _
      rw [ofInner, ofGeneric_resolved named, List.length_map, if_pos taken]
  | @grouped inner e ofInner inductionHypothesis =>
      rw [read_of_noBar (by simp) (by simp [Node.isBar, Node.token?])]
      exact inductionHypothesis
  | @union alternatives several noBar ofAlternatives inductionHypothesis =>
      refine read_alternatives several noBar ?_ ?_
      · exact fun entry member => (ofAlternatives entry member).ne_nil
      · intro entry member
        rw [← read_of_noBar (ofAlternatives entry member).ne_nil (noBar entry member)]
        exact inductionHypothesis entry member

/-! ## Whatever is read is derived -/

private theorem exists_of_parse {text : List Char} {result : Resolved TypeExpr}
    (accepted : Value.parse text = .ok result) : result = result.value.resolved := by
  unfold Value.parse at accepted
  split at accepted
  · cases accepted
  · exact congrArg (Resolved.mk result.value) (Value.read_eq_ok_iff.mp accepted).2

private theorem exists_tokens {nodes : List Node} {text : List Char}
    (accepted : joined (readings nodes) = .ok text) :
    ∃ tokens : List Token, nodes = tokens.map .token ∧ text = tokens.flatMap Token.text := by
  induction nodes generalizing text with
  | nil =>
      cases accepted
      exact ⟨[], rfl, rfl⟩
  | cons head tail inductionHypothesis =>
      cases head with
      | group inner => cases accepted
      | token single =>
          change (joined (readings tail)).map (single.text ++ ·) = .ok text at accepted
          cases later : joined (readings tail) with
          | error reason =>
              rw [later] at accepted
              cases accepted
          | ok rest =>
              rw [later] at accepted
              cases accepted
              obtain ⟨tokens, rfl, rfl⟩ := inductionHypothesis later
              exact ⟨single :: tokens, rfl, rfl⟩

/-- Whatever is read from the nodes is spelled by them. -/
private def ReadsSoundly (nodes : List Node) : Prop :=
  ∀ result, read (readings nodes) = .ok result → ∃ e, Spells nodes e ∧ result = e.resolved

/-- Whatever is read from some nodes of a group is spelled by them. -/
private def SoundInside : Node → Prop
  | .token _ => True
  | .group inner => ∀ part, (∀ node ∈ part, node ∈ inner) → ReadsSoundly part

/-- The results of a run are the trees of derivations, one for each list of nodes. -/
private theorem exists_entries {f : List Reading → Except Reason (Resolved TypeExpr)}
    {parts : List (List Node)} {results : List (Resolved TypeExpr)}
    (accepted : (parts.map readings).mapM f = .ok results)
    (sound : ∀ part ∈ parts, ∀ result, f (readings part) = .ok result →
      ∃ e, Spells part e ∧ result = e.resolved) :
    ∃ entries : List (List Node × TypeExpr), parts = entries.map Prod.fst ∧
      results = (entries.map Prod.snd).map TypeExpr.resolved ∧
      ∀ entry ∈ entries, Spells entry.1 entry.2 := by
  rw [Outcome.mapM_eq_ok_iff, List.forall₂_map_left_iff] at accepted
  induction accepted with
  | nil => exact ⟨[], rfl, rfl, by simp⟩
  | @cons part result others later first rest inductionHypothesis =>
      obtain ⟨e, spelled, rfl⟩ := sound part List.mem_cons_self result first
      obtain ⟨entries, rfl, rfl, ofEntries⟩ :=
        inductionHypothesis fun other member => sound other (List.mem_cons_of_mem part member)
      refine ⟨(part, e) :: entries, rfl, rfl, ?_⟩
      intro entry member
      rcases List.mem_cons.mp member with rfl | member
      · exact spelled
      · exact ofEntries entry member

private theorem mem_of_mem_split {nodes part : List Node}
    (member : part ∈ Arguments.split Node.token? nodes) : ∀ node ∈ part, node ∈ nodes := by
  intro node inside
  rw [← Node.intercalate_split nodes]
  exact Intercalate.mem_of_mem_part member inside

private theorem exists_of_generic {word : List Char} {inner : List Node}
    (sound : SoundInside (.group inner)) {result : Resolved TypeExpr}
    (accepted : ofGeneric word (readArguments (readings inner)) = .ok result) :
    ∃ e, Spells [.token (.word word), .group inner] e ∧ result = e.resolved := by
  cases named : Generic.ofDocName? (String.ofList word) with
  | none =>
      rw [ofGeneric, named] at accepted
      cases accepted
  | some ctor =>
      cases run : ((Arguments.split Node.token? inner).map readings).mapM read with
      | error reason =>
          rw [readArguments, split_readings, run, ofGeneric, named] at accepted
          cases accepted
      | ok results =>
          obtain ⟨entries, divided, rfl, ofEntries⟩ := exists_entries run fun part member =>
            sound part (mem_of_mem_split member)
          have ofArguments : readArguments (readings inner) =
              .ok ⟨entries.map Prod.snd, TypeExpr.namespacesOfAll (entries.map Prod.snd)⟩ := by
            rw [readArguments, split_readings, run]
            exact congrArg Except.ok (TypeExpr.all_resolved _)
          rw [ofArguments, ofGeneric_resolved named] at accepted
          split at accepted
          · rename_i taken
            cases accepted
            rw [List.length_map] at taken
            exact ⟨_, .generic named taken divided ofEntries, rfl⟩
          · cases accepted

private theorem exists_group_of_reading {node : Node}
    {alone : Except Reason (Resolved TypeExpr)}
    {arguments : Except Reason (Resolved (List TypeExpr))}
    (same : node.reading = .group alone arguments) :
    ∃ inner, node = .group inner ∧ alone = read (readings inner) ∧
      arguments = readArguments (readings inner) := by
  cases node with
  | token single => cases same
  | group inner =>
      cases same
      exact ⟨inner, rfl, rfl, rfl⟩

private theorem exists_of_alternative {part : List Node}
    (noBar : ∀ node ∈ part, node.isBar = false) (sound : ∀ node ∈ part, SoundInside node)
    {result : Resolved TypeExpr} (accepted : alternative (readings part) = .ok result) :
    ∃ e, Spells part e ∧ result = e.resolved := by
  unfold alternative at accepted
  split at accepted
  · rename_i word isWord
    rw [Node.readings_eq_map, List.map_eq_singleton_iff] at isWord
    obtain ⟨node, rfl, isToken⟩ := isWord
    rw [Node.reading_eq_token.mp isToken]
    unfold ofWord at accepted
    split at accepted
    · rename_i complete
      cases accepted
      refine ⟨.name (String.ofList word), .name complete, ?_⟩
      rw [Dotted.resolve, TypeExpr.resolved, TypeExpr.namespaces, String.toList_ofList]
    · cases accepted
  · rename_i word alone arguments isGeneric
    rw [Node.readings_eq_map, List.map_eq_cons_iff] at isGeneric
    obtain ⟨first, later, rfl, isToken, isGroup⟩ := isGeneric
    rw [List.map_eq_singleton_iff] at isGroup
    obtain ⟨second, rfl, isGroup⟩ := isGroup
    obtain ⟨inner, rfl, rfl, rfl⟩ := exists_group_of_reading isGroup
    rw [Node.reading_eq_token.mp isToken]
    exact exists_of_generic (sound (.group inner) (by simp)) accepted
  · rename_i alone arguments isGroup
    rw [Node.readings_eq_map, List.map_eq_singleton_iff] at isGroup
    obtain ⟨node, rfl, isGroup⟩ := isGroup
    obtain ⟨inner, rfl, rfl, rfl⟩ := exists_group_of_reading isGroup
    obtain ⟨e, spelled, same⟩ :=
      sound (.group inner) List.mem_cons_self inner (fun _ => id) result accepted
    exact ⟨e, .grouped spelled, same⟩
  · rename_i notWord _ _
    cases text : joined (readings part) with
    | error reason =>
        rw [text] at accepted
        cases accepted
    | ok chars =>
        obtain ⟨tokens, rfl, rfl⟩ := exists_tokens text
        rw [text] at accepted
        have parsed : Value.parse (tokens.flatMap Token.text) = .ok result := accepted
        have exact := exists_of_parse parsed
        rw [exact] at parsed
        refine ⟨result.value, .value ?_ ?_ parsed, exact⟩
        · intro present
          have free := noBar (.token .bar) (List.mem_map_of_mem present)
          cases free
        · intro word isWord
          exact notWord word (by rw [isWord]; rfl)

/-- A sequence whose groups are read soundly is read soundly. -/
private theorem readsSoundly {nodes : List Node} (sound : ∀ node ∈ nodes, SoundInside node) :
    ReadsSoundly nodes := by
  intro result accepted
  have ofParts : ∀ part ∈ nodes.splitOnP Node.isBar, ∀ result,
      alternative (readings part) = .ok result → ∃ e, Spells part e ∧ result = e.resolved := by
    intro part member result single
    have within := Intercalate.mem_of_mem_splitOnP member
    exact exists_of_alternative (Intercalate.free_of_mem_splitOnP member)
      (fun node inside => sound node (within node inside)) single
  unfold read at accepted
  rw [splitOnP_readings] at accepted
  dsimp only at accepted
  split at accepted
  · cases accepted
  cases run : ((nodes.splitOnP Node.isBar).map readings).mapM alternative with
  | error reason =>
      rw [run] at accepted
      cases accepted
  | ok results =>
      obtain ⟨entries, divided, rfl, ofEntries⟩ := exists_entries run ofParts
      have noBar : ∀ entry ∈ entries, ∀ node ∈ entry.1, node.isBar = false := by
        intro entry member
        refine @Intercalate.free_of_mem_splitOnP _ _ nodes _ ?_
        rw [divided]
        exact List.mem_map_of_mem member
      have whole : [Node.token .bar].intercalate (entries.map Prod.fst) = nodes := by
        rw [← divided]
        exact Intercalate.intercalate_splitOnP (fun _ isBar => Node.isBar_iff.mp isBar) nodes
      rw [run] at accepted
      match entries, accepted with
      | [], _ => exact absurd divided (List.splitOnP_ne_nil _ _)
      | [entry], accepted =>
          cases accepted
          have only := ofEntries entry List.mem_cons_self
          rw [List.map_singleton, List.intercalate_singleton] at whole
          rw [← whole]
          exact ⟨entry.2, only, rfl⟩
      | first :: second :: others, accepted =>
          have several : 2 ≤ (first :: second :: others).length := by
            simp only [List.length_cons]
            omega
          have united : (Except.ok ((Resolved.all (((first :: second :: others).map Prod.snd).map
              TypeExpr.resolved)).map TypeExpr.union) : Except Reason _) = .ok result := accepted
          rw [TypeExpr.all_resolved] at united
          cases united
          refine ⟨.union ((first :: second :: others).map Prod.snd), ?_, rfl⟩
          rw [← whole]
          exact .union several noBar ofEntries

private theorem soundInside (node : Node) : SoundInside node := by
  induction node with
  | token single => trivial
  | group inner inductionHypothesis =>
      intro part within
      exact readsSoundly fun node member => inductionHypothesis node (within node member)

/-- The reader accepts exactly the nodes that the grammar derives. It gives the tree of the
derivation with the namespaces of the tree. -/
theorem read_eq_ok_iff {nodes : List Node} {result : Resolved TypeExpr} :
    read (readings nodes) = .ok result ↔ ∃ e, Spells nodes e ∧ result = e.resolved := by
  constructor
  · intro accepted
    exact readsSoundly (fun node _ => soundInside node) result accepted
  · rintro ⟨e, spelled, rfl⟩
    exact spelled.read_readings

end Sequence

/-! ## Texts -/

namespace TypeExpr

open Sequence (Spells)

/-- A text is read exactly if its tokens group to nodes that the grammar derives. -/
theorem parse_eq_ok_iff {text : String} {result : Resolved TypeExpr} :
    parse text = .ok result ↔
      ∃ nodes e, Node.ofTokens (Token.ofText text.toList) = .ok nodes ∧ Spells nodes e ∧
        result = e.resolved := by
  simp only [parse, parseChars, Token.ofText_trim]
  cases grouped : Node.ofTokens (Token.ofText text.toList) with
  | error reason => simp
  | ok nodes =>
      cases accepted : Sequence.read (Node.readings nodes) with
      | error reason =>
          have refused : ∀ e, ¬ Spells nodes e := by
            intro e spelled
            rw [spelled.read_readings] at accepted
            cases accepted
          simp [accepted, refused]
      | ok found =>
          have derived := @Sequence.read_eq_ok_iff nodes result
          rw [accepted] at derived
          simpa [accepted] using derived

/-- Tokens that are not one word spell the value expression with whose text they are joined. -/
theorem IsValue.spells_tokens {e : TypeExpr} (isValue : IsValue e) {tokens : List Token}
    (noBar : Token.bar ∉ tokens) (several : ∀ word, tokens ≠ [.word word])
    (joined : tokens.flatMap Token.text = e.inlineText) : Spells (tokens.map .token) e := by
  refine .value noBar several ?_
  rw [joined]
  exact isValue.parse_inlineText

theorem parse_of_tokens {text : String} (tokens : List Token) {e : TypeExpr}
    (isText : Node.ofTokens (Token.ofText text.toList) = .ok (tokens.map .token))
    (noBar : Token.bar ∉ tokens) (several : ∀ word, tokens ≠ [.word word]) (isValue : IsValue e)
    (joined : tokens.flatMap Token.text = e.inlineText) : parse text = .ok e.resolved :=
  parse_eq_ok_iff.mpr ⟨_, e, isText, isValue.spells_tokens noBar several joined, rfl⟩

end TypeExpr

/-! ## Whatever is read is well formed -/

namespace Value

open TypeExpr (IsValue isInline)

theorem Spells.isValue {lexemes : List Lexeme} {e : TypeExpr} (spelled : Spells lexemes e)
    (genuine : ∀ lexeme ∈ lexemes, lexeme.IsGenuine)
    (plain : ∀ c ∈ lexemes.flatMap Lexeme.text, isInline c = true) : IsValue e := by
  induction spelled with
  | @name text complete =>
      obtain ⟨parts, start⟩ := genuine _ List.mem_cons_self
      refine .name ?_
      rw [String.toList_ofList, TypeExpr.isDottedName, complete, parts, start]
      rfl
  | @literal text =>
      rw [List.flatMap_singleton, Lexeme.text] at plain
      rcases genuine _ List.mem_cons_self with
        digits | dots | ⟨quote, body, isQuote, written, ofBody⟩
      · exact .number (by rwa [String.toList_ofList])
      · exact .ellipsis (by rwa [String.toList_ofList])
      · refine .quoted ⟨quote, body, isQuote, by rwa [String.toList_ofList], ?_⟩
        intro c member
        refine ⟨ofBody c member, plain c ?_⟩
        rw [written]
        exact List.mem_cons_of_mem quote (List.mem_append_left [quote] member)
  | @subscript front base arguments trailing ofBase nonempty ofArguments baseHypothesis
      inductionHypothesis =>
      have ofFront := baseHypothesis (fun lexeme member => genuine lexeme (by simp [member]))
        (fun c member => plain c (by rw [List.flatMap_append]; exact List.mem_append_left _ member))
      refine .subscript ofFront (by simpa using nonempty) ?_
      intro argument member
      obtain ⟨entry, inside, rfl⟩ := List.mem_map.mp member
      have within : ∀ lexeme ∈ entry.1, lexeme ∈ joinLexemes (arguments.map Prod.fst) :=
        fun lexeme => Intercalate.mem_of_mem_part (List.mem_map_of_mem inside)
      refine inductionHypothesis entry inside ?_ ?_
      · intro lexeme present
        exact genuine lexeme (by simp [within lexeme present])
      · intro c present
        obtain ⟨lexeme, inEntry, inText⟩ := List.mem_flatMap.mp present
        exact plain c (List.mem_flatMap.mpr ⟨lexeme, by simp [within lexeme inEntry], inText⟩)

theorem isValue_of_parse {text : List Char} {result : Resolved TypeExpr}
    (plain : ∀ c ∈ text, isInline c = true) (accepted : parse text = .ok result) :
    IsValue result.value := by
  unfold parse at accepted
  split at accepted
  · cases accepted
  · rename_i lexemes divided
    obtain ⟨written, genuine⟩ := text_of_lex divided
    exact (read_eq_ok_iff.mp accepted).1.isValue genuine (by rwa [written])

end Value

namespace TypeExpr

open Sequence (Spells)

private theorem isInline_of_isGenuine {token : Token} (genuine : token.IsGenuine)
    (plain : token.isPlain = true) : ∀ c ∈ token.text, isInline c = true := by
  cases token with
  | word letters =>
      intro c member
      have inWord := genuine.2.1 c member
      refine isInline_of_isIdentifierPart ?_
      rw [Token.isWordChar, Bool.or_eq_true] at inWord
      rcases inWord with letter | dot
      · simp [Value.isIdentifierPart, Char.isAlphanum, letter]
      · simp [Value.isIdentifierPart, dot]
  | other c =>
      intro d member
      rw [List.mem_singleton.mp member]
      exact genuine.2
  | opening => cases plain
  | closing => cases plain
  | bar => cases plain

theorem isDottedName_of_word {word : List Char} (genuine : (Token.word word).IsGenuine)
    (complete : Dotted.isComplete word = true) : isDottedName word = true := by
  obtain ⟨nonempty, inWord, -⟩ := genuine
  have parts : word.all Value.isIdentifierPart = true := by
    rw [List.all_eq_true]
    intro c member
    have kind := inWord c member
    rw [Token.isWordChar, Bool.or_eq_true] at kind
    rcases kind with letter | dot
    · simp [Value.isIdentifierPart, Char.isAlphanum, letter]
    · simp [Value.isIdentifierPart, dot]
  cases word with
  | nil => exact absurd rfl nonempty
  | cons c rest =>
      have letter : c.isAlpha = true := by
        have kind := inWord c List.mem_cons_self
        rw [Token.isWordChar, Bool.or_eq_true, beq_iff_eq] at kind
        rcases kind with letter | rfl
        · exact letter
        · rw [Dotted.isComplete, Dotted.segments, List.splitOn_cons_eq_if_modifyHead] at complete
          simp at complete
      rw [isDottedName, complete, parts, List.head?_cons, Option.any_some, letter]
      rfl

theorem isValue_of_word {word : List Char} (genuine : (Token.word word).IsGenuine)
    (complete : Dotted.isComplete word = true) : IsValue (.name (String.ofList word)) := by
  refine .name ?_
  rw [String.toList_ofList]
  exact isDottedName_of_word genuine complete

/-- A node that some text is grouped to. -/
private def IsGenuine (node : Node) : Prop :=
  node.IsGrouped ∧ ∀ token ∈ node.flatten, token.IsGenuine

private theorem isGenuine_inner {inner : List Node} (genuine : IsGenuine (.group inner)) :
    ∀ node ∈ inner, IsGenuine node := by
  obtain ⟨grouped, tokens⟩ := genuine
  cases grouped with
  | group ofInner =>
      intro node member
      refine ⟨ofInner node member, ?_⟩
      intro token present
      have inAll : token ∈ Node.flattenAll inner := Node.mem_flattenAll.mpr ⟨node, member, present⟩
      exact tokens token (by simp [Node.flatten, inAll])

private theorem isPlain_of_isGenuine {single : Token} (genuine : IsGenuine (.token single))
    (notBar : single ≠ .bar) : single.IsGenuine ∧ single.isPlain = true := by
  obtain ⟨grouped, tokens⟩ := genuine
  refine ⟨tokens single (by simp [Node.flatten]), ?_⟩
  cases grouped with
  | token notOpening notClosing => cases single <;> simp_all [Token.isPlain]

private theorem wellFormed_of_spells {nodes : List Node} {e : TypeExpr} (spelled : Spells nodes e)
    (genuine : ∀ node ∈ nodes, IsGenuine node) : WellFormed e := by
  induction spelled with
  | @name word complete =>
      obtain ⟨ofToken, -⟩ := isPlain_of_isGenuine (genuine _ List.mem_cons_self) (by simp)
      exact .value (isValue_of_word ofToken complete)
  | @value tokens e noBar several parsed =>
      refine .value (Value.isValue_of_parse ?_ parsed)
      intro c member
      obtain ⟨single, inside, inText⟩ := List.mem_flatMap.mp member
      have notBar : single ≠ .bar := fun isBar => noBar (isBar ▸ inside)
      obtain ⟨ofToken, plain⟩ :=
        isPlain_of_isGenuine (genuine _ (List.mem_map_of_mem inside)) notBar
      exact isInline_of_isGenuine ofToken plain c inText
  | @generic word ctor inner arguments named taken divided ofArguments inductionHypothesis =>
      have ofInner := isGenuine_inner (genuine (.group inner) (by simp))
      refine .generic (by simpa using taken) ?_ ?_
      · intro empty
        rw [List.map_eq_nil_iff.mp empty] at divided
        exact Arguments.splitFrom_ne_nil _ 0 inner divided
      · intro argument member
        obtain ⟨entry, inside, rfl⟩ := List.mem_map.mp member
        have part : entry.1 ∈ Arguments.split Node.token? inner := by
          rw [divided]
          exact List.mem_map_of_mem inside
        exact inductionHypothesis entry inside
          fun node present => ofInner node (Sequence.mem_of_mem_split part node present)
  | @grouped inner e ofInner inductionHypothesis =>
      exact inductionHypothesis (isGenuine_inner (genuine (.group inner) List.mem_cons_self))
  | @union alternatives several noBar ofAlternatives inductionHypothesis =>
      refine .union (by simpa using several) ?_
      intro alternative member
      obtain ⟨entry, inside, rfl⟩ := List.mem_map.mp member
      exact inductionHypothesis entry inside fun node present =>
        genuine node (Intercalate.mem_of_mem_part (List.mem_map_of_mem inside) present)

/-- What is read from a text is a well-formed type with exactly the namespaces it refers
to. -/
theorem wellFormed_of_parse {text : String} {result : Resolved TypeExpr}
    (accepted : parse text = .ok result) :
    WellFormed result.value ∧ result = result.value.resolved := by
  obtain ⟨nodes, e, grouping, spelled, rfl⟩ := parse_eq_ok_iff.mp accepted
  obtain ⟨written, grouped⟩ := Node.flattenAll_of_ofTokens grouping
  refine ⟨wellFormed_of_spells spelled ?_, rfl⟩
  intro node member
  refine ⟨grouped node member, ?_⟩
  intro token present
  have inText : token ∈ Token.ofText text.toList := by
    rw [← written]
    exact Node.mem_flattenAll.mpr ⟨node, member, present⟩
  exact Token.isGenuine_of_mem_ofText inText

theorem mem_namespaces_of_parse {text name : String} {found : Resolved TypeExpr}
    (accepted : parse text = .ok found) :
    name ∈ found.namespaces ↔ found.value.Refers name := by
  obtain ⟨-, same⟩ := wellFormed_of_parse accepted
  rw [← mem_namespaces]
  exact same ▸ Iff.rfl

end TypeExpr

end TypeStub
