import Mathlib.Data.List.Forall2
import Mathlib.Data.List.Nodup

/-!
Contract: computations that may fail, one after another over a list.

Owns:
- when such a run succeeds, and what its results are then, and with which step it fails;
- what is selected from the results, item by item;
- what a search finds where keys differ.
-/

namespace TypeStub.Outcome

variable {ε α β : Type}

/-- A run over a list succeeds exactly if each of its steps does, and its results are those
of the steps. -/
theorem mapM_eq_ok_iff {f : α → Except ε β} {items : List α} {results : List β} :
    items.mapM f = .ok results ↔
      List.Forall₂ (fun item result => f item = .ok result) items results := by
  induction items generalizing results with
  | nil => cases results <;> simp [pure, Except.pure]
  | cons item rest inductionHypothesis =>
      rw [List.mapM_cons, List.forall₂_cons_left_iff]
      cases first : f item with
      | error fault => simp [bind, Except.bind]
      | ok result =>
          cases later : rest.mapM f with
          | error fault =>
              have refused : ∀ others : List β,
                  ¬ List.Forall₂ (fun item result => f item = .ok result) rest others := by
                intro others steps
                rw [inductionHypothesis.mpr steps] at later
                cases later
              simp [bind, Except.bind, refused]
          | ok others =>
              have steps := inductionHypothesis.mp later
              constructor
              · intro same
                cases same
                exact ⟨result, others, rfl, steps, rfl⟩
              · rintro ⟨head, tail, sameHead, tailSteps, rfl⟩
                cases sameHead
                rw [inductionHypothesis.mpr tailSteps] at later
                cases later
                rfl

private theorem mapM_cons_eq_error_iff {f : α → Except ε β} {head : α} {rest : List α}
    {fault : ε} :
    (head :: rest).mapM f = .error fault ↔
      f head = .error fault ∨ (∃ result, f head = .ok result) ∧ rest.mapM f = .error fault := by
  rw [List.mapM_cons]
  cases f head with
  | error other => simp [bind, Except.bind]
  | ok result => cases rest.mapM f <;> simp [bind, Except.bind, pure, Except.pure]

/-- A run over a list fails exactly with its first step that fails. -/
theorem mapM_eq_error_iff {f : α → Except ε β} {items : List α} {fault : ε} :
    items.mapM f = .error fault ↔
      ∃ before item after, items = before ++ item :: after ∧
        (∀ earlier ∈ before, ∃ result, f earlier = .ok result) ∧ f item = .error fault := by
  induction items with
  | nil => simp [pure, Except.pure]
  | cons head rest inductionHypothesis =>
      rw [mapM_cons_eq_error_iff, inductionHypothesis]
      constructor
      · rintro (refused | ⟨succeeds, before, item, after, rfl, earlier, refused⟩)
        · exact ⟨[], head, rest, rfl, by simp, refused⟩
        · exact ⟨head :: before, item, after, rfl, List.forall_mem_cons.mpr ⟨succeeds, earlier⟩,
            refused⟩
      · rintro ⟨before, item, after, divided, earlier, refused⟩
        cases before with
        | nil =>
            obtain ⟨rfl, -⟩ := List.cons.inj divided
            exact .inl refused
        | cons first others =>
            obtain ⟨rfl, rfl⟩ := List.cons.inj divided
            obtain ⟨succeeds, ofOthers⟩ := List.forall_mem_cons.mp earlier
            exact .inr ⟨succeeds, others, item, after, rfl, ofOthers, refused⟩

/-- Every result stands beside an item. -/
theorem exists_left_of_mem {step : α → β → Prop} {items : List α} {results : List β}
    (steps : List.Forall₂ step items results) {result : β} (member : result ∈ results) :
    ∃ item ∈ items, step item result := by
  induction steps with
  | nil => cases member
  | @cons item found items results first later inductionHypothesis =>
      rcases List.mem_cons.mp member with rfl | inLater
      · exact ⟨item, List.mem_cons_self, first⟩
      · obtain ⟨other, inItems, same⟩ := inductionHypothesis inLater
        exact ⟨other, List.mem_cons_of_mem item inItems, same⟩

/-- Every result that is kept stands beside an item. -/
theorem exists_left_of_kept {step : α → Option β → Prop} {items : List α}
    {results : List (Option β)} (steps : List.Forall₂ step items results) {result : β}
    (kept : result ∈ results.filterMap id) : ∃ item ∈ items, step item (some result) := by
  obtain ⟨outcome, inResults, isKept⟩ := List.mem_filterMap.mp kept
  have isResult : outcome = some result := isKept
  exact exists_left_of_mem steps (isResult ▸ inResults)

/-- Every item has a result beside it. -/
theorem exists_right_of_mem {step : α → β → Prop} {items : List α} {results : List β}
    (steps : List.Forall₂ step items results) {item : α} (member : item ∈ items) :
    ∃ result ∈ results, step item result := by
  obtain ⟨result, inResults, same⟩ := exists_left_of_mem (steps.flip) member
  exact ⟨result, inResults, same⟩

/-- A run over a list succeeds exactly if each of its steps does. -/
theorem exists_mapM_iff {f : α → Except ε β} {items : List α} :
    (∃ results, items.mapM f = .ok results) ↔ ∀ item ∈ items, ∃ result, f item = .ok result := by
  constructor
  · rintro ⟨results, accepted⟩ item member
    obtain ⟨result, -, ofItem⟩ := exists_right_of_mem (mapM_eq_ok_iff.mp accepted) member
    exact ⟨result, ofItem⟩
  · intro accepts
    cases outcome : items.mapM f with
    | ok results => exact ⟨results, rfl⟩
    | error fault =>
        obtain ⟨before, item, after, rfl, -, refused⟩ := mapM_eq_error_iff.mp outcome
        obtain ⟨result, accepted⟩ := accepts item (by simp)
        rw [refused] at accepted
        cases accepted

/-- Neighbouring items have neighbouring results beside them. -/
theorem exists_right_of_infix {step : α → β → Prop} {items part : List α} {results : List β}
    (steps : List.Forall₂ step items results) (inside : part <:+: items) :
    ∃ found, found <:+: results ∧ List.Forall₂ step part found := by
  obtain ⟨before, after, rfl⟩ := inside
  rw [List.append_assoc] at steps
  have behind := List.forall₂_drop_append results before (part ++ after) steps.flip
  have found := List.forall₂_take_append _ part after behind
  refine ⟨_, ?_, found.flip⟩
  exact (List.take_prefix _ _).isInfix.trans (List.drop_suffix _ _).isInfix

/-- Every result of a run is that of some step. -/
theorem exists_of_mem_mapM {f : α → Except ε β} {items : List α} {results : List β}
    (accepted : items.mapM f = .ok results) {result : β} (member : result ∈ results) :
    ∃ item ∈ items, f item = .ok result :=
  exists_left_of_mem (mapM_eq_ok_iff.mp accepted) member

/-- Two runs whose steps agree, item by item, have one outcome. -/
theorem mapM_congr {γ : Type} {f : α → Except ε β} {g : γ → Except ε β} {lefts : List α}
    {rights : List γ} (same : List.Forall₂ (fun left right => f left = g right) lefts rights) :
    lefts.mapM f = rights.mapM g := by
  induction same with
  | nil => rfl
  | cons ofHead later inductionHypothesis =>
      rw [List.mapM_cons, List.mapM_cons, ofHead, inductionHypothesis]

/-- Of two steps, both succeed if the second one does. -/
theorem bind_eq_ok_iff {first : Except ε α} {next : α → Except ε β} {result : β} :
    (first >>= next) = .ok result ↔ ∃ found, first = .ok found ∧ next found = .ok result := by
  cases first <;> simp [bind, Except.bind]

theorem map_eq_ok_iff {f : α → β} {outcome : Except ε α} {result : β} :
    outcome.map f = .ok result ↔ ∃ found, outcome = .ok found ∧ f found = result := by
  cases outcome <;> simp [Except.map]

theorem map_eq_error_iff {f : α → β} {outcome : Except ε α} {fault : ε} :
    outcome.map f = .error fault ↔ outcome = .error fault := by
  cases outcome <;> simp [Except.map]

/-- If the results selected are those of the items chosen, they correspond in order. -/
theorem forall₂_selected {γ : Type} {step : α → β → Prop} {gives : α → γ → Prop}
    {chosen : α → Bool} {select : β → Option γ} {items : List α} {results : List β}
    (steps : List.Forall₂ step items results)
    (selects : ∀ item ∈ items, ∀ result, step item result → chosen item = true →
      ∃ found, select result = some found ∧ gives item found)
    (passes : ∀ item ∈ items, ∀ result, step item result → chosen item = false →
      select result = none) :
    List.Forall₂ gives (items.filter chosen) (results.filterMap select) := by
  induction steps with
  | nil => exact .nil
  | @cons item result items results ofItem later inductionHypothesis =>
      have ofLater := inductionHypothesis
        (fun other member => selects other (List.mem_cons_of_mem item member))
        (fun other member => passes other (List.mem_cons_of_mem item member))
      cases isChosen : chosen item with
      | true =>
          obtain ⟨found, selected, given⟩ := selects item List.mem_cons_self result ofItem isChosen
          rw [List.filter_cons_of_pos isChosen, List.filterMap_cons_some selected]
          exact .cons given ofLater
      | false =>
          have passed := passes item List.mem_cons_self result ofItem isChosen
          rw [List.filter_cons_of_neg (by simp [isChosen]), List.filterMap_cons_none passed]
          exact ofLater

/-- Where keys differ, a search finds the one item of the key, wherever it stands. -/
theorem find?_key_eq_some_iff {κ : Type} [DecidableEq κ] {key : α → κ} {items : List α}
    (distinct : (items.map key).Nodup) {wanted : κ} {item : α} :
    (items.find? fun other => key other = wanted) = some item ↔
      item ∈ items ∧ key item = wanted := by
  constructor
  · intro found
    exact ⟨List.mem_of_find?_eq_some found, by simpa using List.find?_some found⟩
  · rintro ⟨inside, rfl⟩
    cases found : items.find? fun other => key other = key item with
    | none => exact absurd (decide_eq_true rfl) (List.find?_eq_none.mp found item inside)
    | some other =>
        have sameKey : key other = key item := by simpa using List.find?_some found
        rw [List.inj_on_of_nodup_map distinct (List.mem_of_find?_eq_some found) inside sameKey]

end TypeStub.Outcome
