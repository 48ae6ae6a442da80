import Mathlib.Data.List.Infix
import TypeStub.Proofs.TypeExpr.Node

/-!
Contract: which token lists can be grouped by their parentheses.

Owns:
- `Node.IsCovered`, token lists in which every closing parenthesis has an opening one before it;
- `Node.Closes`, what becomes of a token list by the numbers of its parentheses;
- `Node.ofTokens_decides`, that grouping decides it and undoes writing.

Does not own: grouping and writing as inverses of each other (`TypeStub.Proofs.TypeExpr.Node`).
-/

namespace TypeStub

open Malformed (Reason)

namespace Node

variable {depth : Nat} {token : Token} {rest tokens : List Token}

/-! ## Parentheses by their numbers -/

/-- With `depth` parentheses open before the tokens, no closing one among them comes before its
opening one. -/
def IsCovered (depth : Nat) (tokens : List Token) : Prop :=
  ∀ front, front <+: tokens → front.count .closing ≤ depth + front.count .opening

/-- The number of open parentheses after a token. -/
def openAfter (depth : Nat) : Token → Nat
  | .opening => depth + 1
  | .closing => depth - 1
  | _ => depth

/-- What a token adds to the open parentheses, it adds to the difference of the counts. -/
theorem openAfter_count (opened : token = .closing → 0 < depth) (rest : List Token) :
    openAfter depth token + rest.count .opening + (token :: rest).count .closing =
      depth + (token :: rest).count .opening + rest.count .closing := by
  cases token with
  | opening => simp [openAfter]; omega
  | closing =>
      have someOpen : 0 < depth := opened rfl
      simp [openAfter]
      omega
  | word letters => simp [openAfter]
  | bar => simp [openAfter]
  | other character => simp [openAfter]

theorem isCovered_nil (depth : Nat) : IsCovered depth [] := by
  intro front isPrefix
  rw [List.prefix_nil.mp isPrefix]
  exact Nat.zero_le _

/-- A token may come first if it does not close what is not open. What follows is counted from
the depth that it leads to. -/
theorem isCovered_cons :
    IsCovered depth (token :: rest) ↔
      (token = .closing → 0 < depth) ∧ IsCovered (openAfter depth token) rest := by
  constructor
  · intro covered
    have opened : token = .closing → 0 < depth := by
      rintro rfl
      have first := covered [.closing] ⟨rest, rfl⟩
      simpa [Nat.one_le_iff_ne_zero, Nat.pos_iff_ne_zero] using first
    refine ⟨opened, fun front isPrefix => ?_⟩
    have longer := covered (token :: front) (List.cons_prefix_cons.mpr ⟨rfl, isPrefix⟩)
    have counts := openAfter_count opened front
    omega
  · rintro ⟨opened, covered⟩ front isPrefix
    rcases List.prefix_cons_iff.mp isPrefix with rfl | ⟨later, rfl, isLater⟩
    · exact Nat.zero_le _
    · have shorter := covered later isLater
      have counts := openAfter_count opened later
      omega

/-! ## What becomes of tokens -/

/-- What grouping gives for tokens, with `depth` parentheses open before them. -/
inductive Closes (depth : Nat) (tokens : List Token) : Except Reason (List Node) → Prop
  | grouped {nodes : List Node} (covered : IsCovered depth tokens)
      (even : depth + tokens.count .opening = tokens.count .closing) :
      Closes depth tokens (.ok nodes)
  | unmatched (exposed : ¬ IsCovered depth tokens) :
      Closes depth tokens (.error .unmatchedClosing)
  | unclosed (covered : IsCovered depth tokens)
      (surplus : tokens.count .closing < depth + tokens.count .opening) :
      Closes depth tokens (.error .unclosedOpening)

theorem Closes.cons {outcome : Except Reason (List Node)}
    (opened : token = .closing → 0 < depth) (closes : Closes (openAfter depth token) rest outcome) :
    Closes depth (token :: rest) outcome := by
  have counts := openAfter_count opened rest
  cases closes with
  | grouped covered even => exact .grouped (isCovered_cons.mpr ⟨opened, covered⟩) (by omega)
  | unmatched exposed => exact .unmatched fun covered => exposed (isCovered_cons.mp covered).2
  | unclosed covered surplus => exact .unclosed (isCovered_cons.mpr ⟨opened, covered⟩) (by omega)

/-- Grouping is decided by the tokens and the number of groups that are open. -/
theorem closes (outer : List (List Node)) (current : List Node) (tokens : List Token) :
    Closes outer.length tokens (close outer current tokens) := by
  -- Each step keeps the number of outer groups at the number of open parentheses.
  induction tokens generalizing outer current with
  | nil =>
      cases outer with
      | nil => exact .grouped (isCovered_nil 0) rfl
      | cons parent further => exact .unclosed (isCovered_nil _) (by simp)
  | cons token rest inductionHypothesis =>
      cases token with
      | opening => exact .cons (by simp) (inductionHypothesis (current :: outer) [])
      | closing =>
          cases outer with
          | nil =>
              exact .unmatched fun covered => absurd ((isCovered_cons.mp covered).1 rfl) (by simp)
          | cons parent further => exact .cons (by simp) (inductionHypothesis further _)
      | word letters => exact .cons (by simp) (inductionHypothesis outer _)
      | bar => exact .cons (by simp) (inductionHypothesis outer _)
      | other character => exact .cons (by simp) (inductionHypothesis outer _)

variable {reason : Reason}

theorem exists_ofTokens_iff :
    (∃ nodes, ofTokens tokens = .ok nodes) ↔
      IsCovered 0 tokens ∧ tokens.count .opening = tokens.count .closing := by
  have outcome : Closes 0 tokens (ofTokens tokens) := closes [] [] tokens
  constructor
  · rintro ⟨nodes, ofNodes⟩
    rw [ofNodes] at outcome
    cases outcome with
    | grouped covered even => exact ⟨covered, by omega⟩
  · rintro ⟨covered, even⟩
    generalize ofTokens tokens = found at outcome
    cases outcome with
    | grouped => exact ⟨_, rfl⟩
    | unmatched exposed => exact absurd covered exposed
    | unclosed _ surplus => omega

theorem ofTokens_eq_error_iff :
    ofTokens tokens = .error reason ↔
      (reason = .unmatchedClosing ∧ ¬ IsCovered 0 tokens) ∨
        (reason = .unclosedOpening ∧ IsCovered 0 tokens ∧
          tokens.count .closing < tokens.count .opening) := by
  have outcome : Closes 0 tokens (ofTokens tokens) := closes [] [] tokens
  constructor
  · intro refused
    rw [refused] at outcome
    cases outcome with
    | unmatched exposed => exact .inl ⟨rfl, exposed⟩
    | unclosed covered surplus => exact .inr ⟨rfl, covered, by omega⟩
  · intro refusal
    generalize ofTokens tokens = found at outcome
    cases outcome with
    | grouped covered even =>
        rcases refusal with ⟨-, exposed⟩ | ⟨-, -, surplus⟩
        · exact absurd covered exposed
        · omega
    | unmatched exposed =>
        rcases refusal with ⟨rfl, -⟩ | ⟨-, covered, -⟩
        · rfl
        · exact absurd covered exposed
    | unclosed covered surplus =>
        rcases refusal with ⟨-, exposed⟩ | ⟨rfl, -⟩
        · exact absurd covered exposed
        · rfl

/-- The tokens are refused with that message. -/
def IsRefusedWith (tokens : List Token) (message : String) : Prop :=
  ∃ reason, ofTokens tokens = .error reason ∧ reason.message = message

/-- Grouping succeeds on the tokens whose parentheses match, as the inverse of writing nodes as
tokens, and otherwise says whether a closing or an opening parenthesis has no partner. -/
theorem ofTokens_decides (tokens : List Token) (nodes : List Node) :
    ((∃ found, ofTokens tokens = .ok found) ↔
        (∀ front, front <+: tokens → front.count .closing ≤ front.count .opening) ∧
          tokens.count .opening = tokens.count .closing) ∧
      (ofTokens tokens = .ok nodes ↔
        flattenAll nodes = tokens ∧ ∀ node ∈ nodes, IsGrouped node) ∧
      (IsRefusedWith tokens "unmatched ')'" ↔
        ∃ front, front <+: tokens ∧ front.count .opening < front.count .closing) ∧
      (IsRefusedWith tokens "unclosed '('" ↔
        (∀ front, front <+: tokens → front.count .closing ≤ front.count .opening) ∧
          tokens.count .closing < tokens.count .opening) := by
  have isCovered_iff : IsCovered 0 tokens ↔
      ∀ front, front <+: tokens → front.count .closing ≤ front.count .opening := by
    simp [IsCovered]
  refine ⟨?_, ?_, ?_, ?_⟩
  · rw [exists_ofTokens_iff, isCovered_iff]
  · constructor
    · exact flattenAll_of_ofTokens
    · rintro ⟨rfl, grouped⟩
      exact ofTokens_flattenAll grouped
  · have exposed_iff : ¬ IsCovered 0 tokens ↔
        ∃ front, front <+: tokens ∧ front.count .opening < front.count .closing := by
      simp [IsCovered]
    rw [← exposed_iff]
    constructor
    · rintro ⟨reason, refused, isMessage⟩
      rcases ofTokens_eq_error_iff.mp refused with ⟨-, exposed⟩ | ⟨rfl, -⟩
      · exact exposed
      · exact absurd isMessage (by decide)
    · intro exposed
      exact ⟨_, ofTokens_eq_error_iff.mpr (.inl ⟨rfl, exposed⟩), rfl⟩
  · rw [← isCovered_iff]
    constructor
    · rintro ⟨reason, refused, isMessage⟩
      rcases ofTokens_eq_error_iff.mp refused with ⟨rfl, -⟩ | ⟨-, surplus⟩
      · exact absurd isMessage (by decide)
      · exact surplus
    · intro surplus
      exact ⟨_, ofTokens_eq_error_iff.mpr (.inr ⟨rfl, surplus⟩), rfl⟩

end Node

end TypeStub
