import Mathlib.Data.List.Perm.Basic
import TypeStub.Json
import TypeStub.Proofs.Outcome

/-!
Contract: records in JSON values, whatever the order of their fields.

Owns:
- `Json.Form`, what a value may be, with the forms of texts, truth values and arrays;
- `Json.IsRecord`, that an object has a record's fields in any order and among others;
- what the readers of records find in such an object.
-/

namespace TypeStub.Json

/-- What a value may be. -/
abbrev Form :=
  Json → Prop

/-- The value is the text. -/
def IsText (text : String) : Form :=
  (· = .text (some text))

/-- The value is the truth value. -/
def IsBool (value : Bool) : Form :=
  (· = .bool value)

/-- The value is an array whose items have the forms. -/
def IsArray (forms : List Form) : Form :=
  fun json => ∃ items, json = .array items ∧ List.Forall₂ (fun form item => form item) forms items

/-- The field has the slot's name and a value of its form. -/
def Fills (slot : String × Form) (field : Option String × Json) : Prop :=
  field.1 = some slot.1 ∧ slot.2 field.2

/-- The value is an object with a field for each slot, in any order and among others with names
that the record does not have. -/
def IsRecord (names : List String) (slots : List (String × Form)) : Form :=
  fun json => ∃ fields given others, json = .object fields ∧ fields.Perm (given ++ others) ∧
    List.Forall₂ Fills slots given ∧
    ∀ field ∈ others, ∃ name, field.1 = some name ∧ name ∉ names

variable {names : List String} {slots : List (String × Form)} {json : Json}
  {fields : List (Option String × Json)} {name : String} {form : Form}

theorem IsRecord.of_perm {other : List (Option String × Json)}
    (isRecord : IsRecord names slots (.object fields)) (perm : other.Perm fields) :
    IsRecord names slots (.object other) := by
  obtain ⟨_, given, others, isObject, ofFields, fills, strange⟩ := isRecord
  obtain rfl := Json.object.inj isObject
  exact ⟨other, given, others, rfl, perm.trans ofFields, fills, strange⟩

/-! ## Nesting -/

theorem nestingOfItems_le_iff {items : List Json} {limit : Nat} :
    nestingOfItems items ≤ limit ↔ ∀ item ∈ items, item.nesting ≤ limit := by
  induction items with
  | nil => simp [nestingOfItems]
  | cons head tail inductionHypothesis =>
      rw [nestingOfItems, Nat.max_le, inductionHypothesis, List.forall_mem_cons]

theorem nestingOfFields_le_iff {limit : Nat} :
    nestingOfFields fields ≤ limit ↔ ∀ field ∈ fields, field.2.nesting ≤ limit := by
  induction fields with
  | nil => simp [nestingOfFields]
  | cons head tail inductionHypothesis =>
      rw [nestingOfFields, Nat.max_le, inductionHypothesis, List.forall_mem_cons]

theorem nesting_lt_of_mem_array {items : List Json} {item : Json} (member : item ∈ items) :
    item.nesting < (Json.array items).nesting := by
  have bounded := nestingOfItems_le_iff.mp (Nat.le_refl (nestingOfItems items)) item member
  rw [nesting]
  omega

theorem nesting_lt_of_mem_object {field : Option String × Json} (member : field ∈ fields) :
    field.2.nesting < (Json.object fields).nesting := by
  have bounded := nestingOfFields_le_iff.mp (Nat.le_refl (nestingOfFields fields)) field member
  rw [nesting]
  omega

/-! ## The fields that a record knows -/

/-- The name and the value of a field, if the record knows the name. -/
def known? (names : List String) (field : Option String × Json) : Option (String × Json) :=
  field.1.bind fun name => if name ∈ names then some (name, field.2) else none

theorem knownFields?_eq_some (named : ∀ field ∈ fields, field.1 ≠ none)
    (distinct : ((fields.filterMap (known? names)).map Prod.fst).Nodup) :
    knownFields? names fields = some (fields.filterMap (known? names)) := by
  induction fields with
  | nil => rfl
  | cons field rest inductionHypothesis =>
      obtain ⟨key, value⟩ := field
      obtain ⟨namedHead, namedRest⟩ := List.forall_mem_cons.mp named
      cases key with
      | none => exact absurd rfl namedHead
      | some key =>
          by_cases isKnown : key ∈ names
          · have ofHead : known? names (some key, value) = some (key, value) := by
              simp [known?, isKnown]
            rw [List.filterMap_cons_some ofHead] at distinct ⊢
            obtain ⟨isNew, distinctRest⟩ := List.nodup_cons.mp distinct
            have isUnseen : (rest.filterMap (known? names)).lookup key = none := by
              refine List.lookup_eq_none_iff.mpr fun other member => ?_
              have differs : key ≠ other.1 := by
                rintro rfl
                exact isNew (List.mem_map.mpr ⟨other, member, rfl⟩)
              simpa using differs
            rw [knownFields?, inductionHypothesis namedRest distinctRest]
            simp [isKnown, isUnseen]
          · have ofHead : known? names (some key, value) = none := by simp [known?, isKnown]
            rw [List.filterMap_cons_none ofHead] at distinct ⊢
            rw [knownFields?, inductionHypothesis namedRest distinct]
            simp [isKnown]

/-- The fields give each slot a value of its form, nested less deep than `limit`, and there
are no others. -/
structure Supplies (slots : List (String × Form)) (limit : Nat) (fields : List (String × Json)) :
    Prop where
  found : ∀ {name form}, slots.lookup name = some form →
    ∃ value, fields.lookup name = some value ∧ form value ∧ value.nesting < limit
  absent : ∀ {name}, slots.lookup name = none → fields.lookup name = none

private theorem lookup_of_mem {entries : List (String × Json)} {value : Json}
    (distinct : (entries.map Prod.fst).Nodup) (member : (name, value) ∈ entries) :
    entries.lookup name = some value := by
  obtain ⟨before, after, rfl⟩ := List.append_of_mem member
  refine List.lookup_eq_some_iff.mpr ⟨before, after, rfl, fun other earlier => ?_⟩
  rw [List.map_append, List.map_cons, List.nodup_append] at distinct
  have differs := distinct.2.2 other.1 (List.mem_map.mpr ⟨other, earlier, rfl⟩) name (by simp)
  simpa using Ne.symm differs

private theorem names_of_fills {given : List (Option String × Json)}
    (fills : List.Forall₂ Fills slots given) (inNames : ∀ slot ∈ slots, slot.1 ∈ names) :
    (given.filterMap (known? names)).map Prod.fst = slots.map Prod.fst := by
  induction fills with
  | nil => rfl
  | @cons slot field slots given first later inductionHypothesis =>
      obtain ⟨ofHead, ofRest⟩ := List.forall_mem_cons.mp inNames
      have isKnown : known? names field = some (slot.1, field.2) := by
        simp [known?, first.1, ofHead]
      rw [List.filterMap_cons_some isKnown, List.map_cons, List.map_cons,
        inductionHypothesis ofRest]

/-- An object that is a record supplies its slots, wherever its fields stand. -/
theorem exists_supplies_of_isRecord (isRecord : IsRecord names slots json)
    (inOrder : List.Sublist (slots.map Prod.fst) names) (distinct : names.Nodup) :
    ∃ known, json.record? names = some known ∧ Supplies slots json.nesting known := by
  obtain ⟨fields, given, others, rfl, perm, fills, strange⟩ := isRecord
  have inNames : ∀ slot ∈ slots, slot.1 ∈ names := fun slot member =>
    inOrder.subset (List.mem_map.mpr ⟨slot, member, rfl⟩)
  have named : ∀ field ∈ fields, field.1 ≠ none := by
    intro field member
    rcases List.mem_append.mp (perm.mem_iff.mp member) with isGiven | isOther
    · obtain ⟨slot, -, isName, -⟩ := Outcome.exists_left_of_mem fills isGiven
      simp [isName]
    · obtain ⟨name, isName, -⟩ := strange field isOther
      simp [isName]
  have unknown : others.filterMap (known? names) = [] := by
    refine List.filterMap_eq_nil_iff.mpr fun field member => ?_
    obtain ⟨name, isName, isStrange⟩ := strange field member
    simp [known?, isName, isStrange]
  have ofGiven : (fields.filterMap (known? names)).Perm (given.filterMap (known? names)) := by
    have filtered := perm.filterMap (known? names)
    rwa [List.filterMap_append, unknown, List.append_nil] at filtered
  have keys := names_of_fills fills inNames
  have distinctKeys : ((fields.filterMap (known? names)).map Prod.fst).Nodup := by
    rw [(ofGiven.map Prod.fst).nodup_iff, keys]
    exact distinct.sublist inOrder
  -- What is known are the given fields in the order of the object; a lookup does not see it.
  refine ⟨fields.filterMap (known? names), knownFields?_eq_some named distinctKeys, ?_, ?_⟩
  · intro name form isSlot
    obtain ⟨before, after, divided, -⟩ := List.lookup_eq_some_iff.mp isSlot
    have member : (name, form) ∈ slots := by simp [divided]
    obtain ⟨field, isGiven, isName, isForm⟩ := Outcome.exists_right_of_mem fills member
    have inFields := perm.mem_iff.mpr (List.mem_append_left others isGiven)
    have isKnown : known? names field = some (name, field.2) := by
      simp [known?, isName, inNames _ member]
    have inKnown := List.mem_filterMap.mpr ⟨field, inFields, isKnown⟩
    exact ⟨field.2, lookup_of_mem distinctKeys inKnown, isForm, nesting_lt_of_mem_object inFields⟩
  · intro name isAbsent
    refine List.lookup_eq_none_iff.mpr fun entry member => ?_
    have inKeys : entry.1 ∈ slots.map Prod.fst := by
      rw [← keys]
      exact List.mem_map.mpr ⟨entry, ofGiven.mem_iff.mp member, rfl⟩
    obtain ⟨slot, inSlots, sameName⟩ := List.mem_map.mp inKeys
    rw [← sameName]
    exact List.lookup_eq_none_iff.mp isAbsent slot inSlots

/-! ## Reading from what is supplied -/

namespace Supplies

variable {α : Type} {limit : Nat} {supplied : List (String × Json)} {decode : Json → Option α}
  {found : α}

theorem required (supplies : Supplies slots limit supplied)
    (isSlot : slots.lookup name = some form)
    (reads : ∀ value, form value → value.nesting < limit → decode value = some found) :
    Json.required supplied name decode = some found := by
  obtain ⟨value, isValue, isForm, nested⟩ := supplies.found isSlot
  rw [Json.required, isValue]
  exact reads value isForm nested

theorem defaulted (supplies : Supplies slots limit supplied)
    (isSlot : slots.lookup name = some form) (fallback : α)
    (reads : ∀ value, form value → value.nesting < limit → decode value = some found) :
    Json.defaulted supplied name fallback decode = some found := by
  obtain ⟨value, isValue, isForm, nested⟩ := supplies.found isSlot
  rw [Json.defaulted, isValue]
  exact reads value isForm nested

theorem optional (supplies : Supplies slots limit supplied) {written : Option α}
    {form : α → Form} (isSlot : slots.lookup name = written.map form)
    (nullRefused : decode .null = none)
    (reads : ∀ found value, form found value → value.nesting < limit →
      decode value = some found) :
    Json.optional supplied name decode = some written := by
  cases written with
  | none => rw [Json.optional, supplies.absent isSlot]
  | some found =>
      obtain ⟨value, isValue, isForm, nested⟩ := supplies.found isSlot
      have decoded := reads found value isForm nested
      rw [Json.optional, isValue]
      cases value with
      | null =>
          rw [nullRefused] at decoded
          cases decoded
      | _ => simp [decoded]

end Supplies

theorem list?_of_isArray {α : Type} {decode : Json → Option α} {form : α → Form} {items : List α}
    (isArray : IsArray (items.map form) json)
    (reads : ∀ item ∈ items, ∀ value, form item value → value.nesting < json.nesting →
      decode value = some item) :
    json.list? decode = some items := by
  obtain ⟨values, rfl, forms⟩ := isArray
  rw [List.forall₂_map_left_iff] at forms
  have nested : ∀ value ∈ values, value.nesting < (Json.array values).nesting :=
    fun _ => nesting_lt_of_mem_array
  rw [list?]
  generalize (Json.array values).nesting = limit at reads nested
  induction forms with
  | nil => rfl
  | @cons item value items values first later inductionHypothesis =>
      obtain ⟨readsFirst, readsLater⟩ := List.forall_mem_cons.mp reads
      obtain ⟨nestedFirst, nestedLater⟩ := List.forall_mem_cons.mp nested
      rw [List.mapM_cons, readsFirst value first nestedFirst,
        inductionHypothesis readsLater nestedLater]
      rfl

end TypeStub.Json
