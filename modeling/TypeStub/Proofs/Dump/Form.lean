import TypeStub.Dump.Schema
import TypeStub.Proofs.Json.Record

/-!
Contract: the reading of dumps that are written in any order of fields and with fields of no
meaning.

Owns:
- the form of every part of a dump;
- that each reader gives back what a value of its form describes.

Does not own: the written form of dumps, which is of their form (`TypeStub.Proofs.Dump.Written`).
-/

namespace TypeStub.Dump

open Json (Form IsText IsBool IsArray IsRecord Supplies)

variable {json : Json} {place : Place}

/-! ## Forms -/

/-- Any value at all. -/
def anything : Form :=
  fun _ => True

/-- The slot of an optional field, which is left out when it is absent. -/
def optionalSlot {α : Type} (name : String) (form : α → Form) (written : Option α) :
    List (String × Form) :=
  written.toList.map fun found => (name, form found)

/-- The slots of a parameter. -/
def parameterSlots (parameter : Parameter) : List (String × Form) :=
  [("name", IsText parameter.name), ("kind", IsText parameter.kind.tag)] ++
    optionalSlot "default" IsText parameter.default

/-- A parameter. -/
def parameterForm (parameter : Parameter) : Form :=
  IsRecord ["name", "kind", "default"] (parameterSlots parameter)

/-- The slot of a signature. -/
def signatureSlot (signature : Option (List Parameter)) : List (String × Form) :=
  optionalSlot "signature" (fun parameters => IsArray (parameters.map parameterForm)) signature

/-- The slots of a routine. -/
def routineSlots (routine : Routine) : List (String × Form) :=
  [("builtin", IsBool routine.builtin)] ++ optionalSlot "doc" IsText routine.doc ++
    signatureSlot routine.signature

/-- A record with the given kind among its fields. -/
def IsTagged (kind : Kind) (names : List String) (slots : List (String × Form)) : Form :=
  IsRecord ("kind" :: names) (("kind", IsText kind.tag) :: slots)

mutual

/-- A member value, with its kind. -/
def objectForm : Object → Form
  | .routine routine => IsTagged .routine ["builtin", "doc", "signature"] (routineSlots routine)
  | .descriptor doc => IsTagged .descriptor ["doc"] (optionalSlot "doc" IsText doc)
  | .classObject cls => IsTagged .classObject classFields (classSlots cls)
  | .value written => IsTagged .value ["repr"] (optionalSlot "repr" IsText written)

/-- The slots of a class. -/
def classSlots : Class → List (String × Form)
  | ⟨name, module, qualname, doc, bases, members, isEnum, signature⟩ =>
      [("name", IsText name), ("module", IsText module), ("qualname", IsText qualname)] ++
        optionalSlot "doc" IsText doc ++
        [("bases", IsArray (classForms bases)), ("members", IsArray (memberForms members)),
          ("is_enum", IsBool isEnum)] ++
        signatureSlot signature

/-- A member whose value is `taken`. -/
def memberForm (taken : Form) : Member → Form
  | ⟨name, value⟩ =>
      IsRecord ["name", "value"]
        [("name", IsText name), ("value", fun json => taken json ∧ objectForm value json)]

/-- Bases, which carry no kind. -/
def classForms : List Class → List Form
  | [] => []
  | head :: tail => IsRecord classFields (classSlots head) :: classForms tail

/-- Members of a class. -/
def memberForms : List Member → List Form
  | [] => []
  | head :: tail => memberForm anything head :: memberForms tail

end

theorem classForms_eq (classes : List Class) :
    classForms classes = classes.map fun cls => IsRecord classFields (classSlots cls) := by
  induction classes with
  | nil => rw [classForms, List.map_nil]
  | cons head tail inductionHypothesis => rw [classForms, inductionHypothesis, List.map_cons]

theorem memberForms_eq (members : List Member) :
    memberForms members = members.map (memberForm anything) := by
  induction members with
  | nil => rw [memberForms, List.map_nil]
  | cons head tail inductionHypothesis => rw [memberForms, inductionHypothesis, List.map_cons]

/-- The slots of a module in which the values of its own members are `taken`. -/
def moduleSlots (taken : Form) (module : Module) : List (String × Form) :=
  [("name", IsText module.name)] ++ optionalSlot "doc" IsText module.doc ++
    [("members", IsArray (module.members.map (memberForm taken))),
      ("object_members", IsArray (module.objectMembers.map (memberForm taken)))]

/-- A module in which the values of its own members are `taken`. -/
def moduleForm (taken : Form) (module : Module) : Form :=
  IsRecord ["name", "doc", "members", "object_members"] (moduleSlots taken module)

/-! ## Texts and kinds -/

theorem text?_of_isText {text : String} (isText : IsText text json) : json.text? = some text := by
  rw [isText, Json.text?]

theorem bool?_of_isBool {value : Bool} (isBool : IsBool value json) : json.bool? = some value := by
  rw [isBool, Json.bool?]

theorem parameterKind?_of_isText {kind : ParameterKind} (isText : IsText kind.tag json) :
    parameterKind? place json = some kind := by
  rw [isText, parameterKind?]
  cases kind <;> decide

theorem Kind.ofJson?_of_isText {kind : Kind} (isText : IsText kind.tag json) :
    Kind.ofJson? place json = some kind := by
  rw [isText, Kind.ofJson?]
  cases kind <;> decide

theorem Kind.divide_eq (fields : List (Option String × Json)) :
    divide fields =
      ((fields.filter (·.1 = some "kind")).map Prod.snd, fields.filter (·.1 ≠ some "kind")) := by
  induction fields with
  | nil => rfl
  | cons field rest inductionHypothesis =>
      by_cases isKind : field.1 = some "kind"
      · simp [divide, inductionHypothesis, isKind]
      · simp [divide, inductionHypothesis, isKind]

/-- A tagged record is its tag and the record without it. -/
theorem IsTagged.exists_rest {kind : Kind} {names : List String} {slots : List (String × Form)}
    (isTagged : IsTagged kind names slots json)
    (inOrder : List.Sublist (slots.map Prod.fst) names) (untagged : "kind" ∉ names) :
    ∃ fields rest, json = .object fields ∧ fields.Perm (kindField kind :: rest) ∧
      IsRecord names slots (.object rest) ∧ ∀ field ∈ rest, field.1 ≠ some "kind" := by
  obtain ⟨fields, _, others, isObject, perm, tagFills, strange⟩ := isTagged
  obtain ⟨⟨_, _⟩, given, ⟨rfl, rfl⟩, fills, rfl⟩ := List.forall₂_cons_left_iff.mp tagFills
  refine ⟨fields, given ++ others, isObject, perm, ?_, ?_⟩
  · refine ⟨_, given, others, rfl, .refl _, fills, fun field member => ?_⟩
    obtain ⟨name, isName, isStrange⟩ := strange field member
    exact ⟨name, isName, fun isKnown => isStrange (List.mem_cons_of_mem _ isKnown)⟩
  · intro field member isKind
    rcases List.mem_append.mp member with isGiven | isOther
    · obtain ⟨slot, inSlots, isName, -⟩ := Outcome.exists_left_of_mem fills isGiven
      have sameName : slot.1 = "kind" := Option.some.inj (isName.symm.trans isKind)
      exact untagged (sameName ▸ inOrder.subset (List.mem_map.mpr ⟨slot, inSlots, rfl⟩))
    · obtain ⟨name, isName, isStrange⟩ := strange field isOther
      have sameName : name = "kind" := Option.some.inj (isName.symm.trans isKind)
      exact isStrange (sameName ▸ List.mem_cons_self)

theorem split?_of_isTagged {kind : Kind} {names : List String} {slots : List (String × Form)}
    (isTagged : IsTagged kind names slots json)
    (inOrder : List.Sublist (slots.map Prod.fst) names) (untagged : "kind" ∉ names) :
    ∃ content, Kind.split? place json = some (kind, content) ∧ IsRecord names slots content ∧
      content.nesting ≤ json.nesting := by
  obtain ⟨fields, rest, rfl, perm, isRecord, noTag⟩ := isTagged.exists_rest inOrder untagged
  have tags : fields.filter (·.1 = some "kind") = [kindField kind] := by
    have noMore : rest.filter (·.1 = some "kind") = [] :=
      List.filter_eq_nil_iff.mpr fun field member => by simpa using noTag field member
    have filtered := perm.filter (·.1 = some "kind")
    rw [List.filter_cons_of_pos (by simp [kindField, field]), noMore] at filtered
    exact List.perm_singleton.mp filtered
  have others : (fields.filter (·.1 ≠ some "kind")).Perm rest := by
    have kept : rest.filter (·.1 ≠ some "kind") = rest :=
      List.filter_eq_self.mpr fun field member => by simpa using noTag field member
    have filtered := perm.filter (·.1 ≠ some "kind")
    rwa [List.filter_cons_of_neg (by simp [kindField, field]), kept] at filtered
  refine ⟨.object (fields.filter (·.1 ≠ some "kind")), ?_, isRecord.of_perm others, ?_⟩
  · have isTag : Kind.ofJson? place (textJson kind.tag) = some kind := Kind.ofJson?_of_isText rfl
    rw [Kind.split?, Kind.divide_eq, tags]
    simp [kindField, field, isTag]
  · rw [Json.nesting, Json.nesting, Nat.succ_le_succ_iff, Json.nestingOfFields_le_iff]
    intro field member
    exact Json.nestingOfFields_le_iff.mp (Nat.le_refl _) field (List.mem_of_mem_filter member)

/-! ## Readers -/

variable {slots : List (String × Form)} {limit : Nat} {fields : List (String × Json)}

theorem optionalText_of_supplies (supplies : Supplies slots limit fields) {name : String}
    {written : Option String} (isSlot : slots.lookup name = written.map IsText) :
    Json.optional fields name Json.text? = some written :=
  supplies.optional isSlot rfl fun _ _ isText _ => text?_of_isText isText

theorem parameter?_of_form {parameter : Parameter} (isForm : parameterForm parameter json) :
    parameter? place json = some parameter := by
  obtain ⟨name, kind, written⟩ := parameter
  have inOrder : List.Sublist ((parameterSlots ⟨name, kind, written⟩).map Prod.fst)
      ["name", "kind", "default"] := by
    cases written <;> simp [parameterSlots, optionalSlot]
  obtain ⟨fields, isFields, supplies⟩ := Json.exists_supplies_of_isRecord isForm inOrder (by decide)
  have ofName : Json.required fields "name" Json.text? = some name :=
    supplies.required rfl fun _ isText _ => text?_of_isText isText
  have ofKind : Json.required fields "kind" (parameterKind? place) = some kind :=
    supplies.required rfl fun _ isText _ => parameterKind?_of_isText isText
  have ofDefault : Json.optional fields "default" Json.text? = some written :=
    optionalText_of_supplies supplies (by cases written <;> rfl)
  simp [parameter?, isFields, ofName, ofKind, ofDefault]

theorem signature_of_supplies (supplies : Supplies slots limit fields)
    {signature : Option (List Parameter)}
    (isSlot : slots.lookup "signature" =
      signature.map fun parameters => IsArray (parameters.map parameterForm)) :
    Json.optional fields "signature" (Json.list? (parameter? place)) = some signature :=
  supplies.optional isSlot rfl fun _ _ isArray _ =>
    Json.list?_of_isArray isArray fun _ _ _ isForm _ => parameter?_of_form isForm

theorem routineSlots_inOrder (routine : Routine) :
    List.Sublist ((routineSlots routine).map Prod.fst) ["builtin", "doc", "signature"] := by
  obtain ⟨builtin, doc, signature⟩ := routine
  cases doc <;> cases signature <;> simp [routineSlots, signatureSlot, optionalSlot]

theorem routine?_of_isRecord {routine : Routine}
    (isRecord : IsRecord ["builtin", "doc", "signature"] (routineSlots routine) json) :
    routine? place json = some routine := by
  obtain ⟨builtin, doc, signature⟩ := routine
  obtain ⟨fields, isFields, supplies⟩ :=
    Json.exists_supplies_of_isRecord isRecord (routineSlots_inOrder _) (by decide)
  have ofBuiltin : Json.defaulted fields "builtin" false Json.bool? = some builtin :=
    supplies.defaulted rfl _ fun _ isBool _ => bool?_of_isBool isBool
  have ofDoc : Json.optional fields "doc" Json.text? = some doc :=
    optionalText_of_supplies supplies (by cases doc <;> cases signature <;> rfl)
  have ofSignature : Json.optional fields "signature" (Json.list? (parameter? place)) =
      some signature :=
    signature_of_supplies supplies (by cases doc <;> cases signature <;> rfl)
  simp [routine?, isFields, ofBuiltin, ofDoc, ofSignature]

theorem optionalSlot_inOrder {α : Type} (name : String) (form : α → Form) (written : Option α) :
    List.Sublist ((optionalSlot name form written).map Prod.fst) [name] := by
  cases written <;> simp [optionalSlot]

/-- A record whose only field is an optional text. -/
theorem optionalText_of_isRecord {name : String} {written : Option String}
    (isRecord : IsRecord [name] (optionalSlot name IsText written) json) :
    ∃ fields, json.record? [name] = some fields ∧
      Json.optional fields name Json.text? = some written := by
  obtain ⟨fields, isFields, supplies⟩ := Json.exists_supplies_of_isRecord isRecord
    (optionalSlot_inOrder name IsText written) (List.nodup_singleton name)
  have isSlot : (optionalSlot name IsText written).lookup name = written.map IsText := by
    cases written <;> simp [optionalSlot]
  exact ⟨fields, isFields, optionalText_of_supplies supplies isSlot⟩

theorem classSlots_inOrder (cls : Class) :
    List.Sublist ((classSlots cls).map Prod.fst) classFields := by
  obtain ⟨name, module, qualname, doc, bases, members, isEnum, signature⟩ := cls
  cases doc <;> cases signature <;>
    simp [classSlots, signatureSlot, optionalSlot, classFields]

-- The depth that a reader is given outlasts the nesting of its value: a member value takes one
-- step for the class in it, at the same nesting, and then two levels lie between a class and
-- its members or bases, and one between a member and its value.
mutual

/-- A member value is read from its form if it can be taken over. -/
theorem object?_of_form : ∀ (object : Object) {json : Json} {place : Place} {depth : Nat},
    objectForm object json → place.admits json = true → json.nesting < depth →
      object? place depth json = some object
  | .routine routine, json, place, depth + 1, isForm, admitted, nested => by
      rw [objectForm] at isForm
      obtain ⟨content, divided, isRecord, -⟩ :=
        split?_of_isTagged isForm (routineSlots_inOrder routine) (by decide)
      rw [object?, if_pos admitted, divided]
      simp [routine?_of_isRecord isRecord]
  | .descriptor doc, json, place, depth + 1, isForm, admitted, nested => by
      rw [objectForm] at isForm
      obtain ⟨content, divided, isRecord, -⟩ :=
        split?_of_isTagged isForm (optionalSlot_inOrder _ _ _) (by decide)
      obtain ⟨fields, isFields, found⟩ := optionalText_of_isRecord isRecord
      rw [object?, if_pos admitted, divided]
      simp [isFields, found]
  | .classObject cls, json, place, depth + 1, isForm, admitted, nested => by
      rw [objectForm] at isForm
      obtain ⟨content, divided, isRecord, within⟩ :=
        split?_of_isTagged isForm (classSlots_inOrder cls) (by decide)
      have found := class?_of_isRecord cls isRecord (show content.nesting ≤ depth by omega)
      rw [object?, if_pos admitted, divided]
      simp [found]
  | .value written, json, place, depth + 1, isForm, admitted, nested => by
      rw [objectForm] at isForm
      obtain ⟨content, divided, isRecord, -⟩ :=
        split?_of_isTagged isForm (optionalSlot_inOrder _ _ _) (by decide)
      obtain ⟨fields, isFields, found⟩ := optionalText_of_isRecord isRecord
      rw [object?, if_pos admitted, divided]
      simp [isFields, found]

/-- Inside a member value, a class is read from the record of its slots. -/
theorem class?_of_isRecord : ∀ (cls : Class) {json : Json} {depth : Nat},
    IsRecord classFields (classSlots cls) json → json.nesting ≤ depth →
      class? .inner depth json = some cls
  | _, json, 0, ⟨fields, _, _, isObject, _⟩, nested => by
      rw [isObject, Json.nesting] at nested
      omega
  | ⟨name, module, qualname, doc, bases, members, isEnum, signature⟩, json, depth + 1, isRecord,
      nested => by
      obtain ⟨fields, isFields, supplies⟩ :=
        Json.exists_supplies_of_isRecord isRecord (classSlots_inOrder _) (by decide)
      have ofName : Json.required fields "name" Json.text? = some name :=
        supplies.required rfl fun _ isText _ => text?_of_isText isText
      have ofModule : Json.required fields "module" Json.text? = some module :=
        supplies.required rfl fun _ isText _ => text?_of_isText isText
      have ofQualname : Json.defaulted fields "qualname" "" Json.text? = some qualname :=
        supplies.defaulted rfl _ fun _ isText _ => text?_of_isText isText
      have ofDoc : Json.optional fields "doc" Json.text? = some doc :=
        optionalText_of_supplies supplies (by cases doc <;> cases signature <;> rfl)
      have ofBases : Json.defaulted fields "bases" [] (Json.list? (class? .inner depth)) =
          some bases := by
        refine supplies.defaulted (by cases doc <;> rfl) [] fun value isArray lower => ?_
        rw [classForms_eq] at isArray
        exact Json.list?_of_isArray isArray fun base inBases item isBase within =>
          class?_of_isRecord base isBase (by omega)
      have ofMembers : Json.defaulted fields "members" [] (Json.list? (member? .inner depth)) =
          some members := by
        refine supplies.defaulted (by cases doc <;> rfl) [] fun value isArray lower => ?_
        rw [memberForms_eq] at isArray
        exact Json.list?_of_isArray isArray fun member inMembers item isMember within =>
          member?_of_form member isMember (fun _ _ => rfl) (by omega)
      have ofIsEnum : Json.defaulted fields "is_enum" false Json.bool? = some isEnum :=
        supplies.defaulted (by cases doc <;> rfl) _ fun _ isBool _ => bool?_of_isBool isBool
      have ofSignature : Json.optional fields "signature" (Json.list? (parameter? .inner)) =
          some signature :=
        signature_of_supplies supplies (by cases doc <;> cases signature <;> rfl)
      simp [class?, isFields, Place.enter, ofName, ofModule, ofQualname, ofDoc, ofBases, ofMembers,
        ofIsEnum, ofSignature]

/-- A member is read from its form if what is taken for its value can be taken over. -/
theorem member?_of_form : ∀ (member : Member) {taken : Form} {json : Json} {place : Place}
    {depth : Nat}, memberForm taken member json →
      (∀ value, taken value → (place.enter 1).admits value = true) → json.nesting < depth →
      member? place depth json = some member
  | ⟨name, value⟩, taken, json, place, depth + 1, isForm, admitted, nested => by
      rw [memberForm] at isForm
      obtain ⟨fields, isFields, supplies⟩ :=
        Json.exists_supplies_of_isRecord isForm (by simp) (by decide)
      have ofName : Json.required fields "name" Json.text? = some name :=
        supplies.required rfl fun _ isText _ => text?_of_isText isText
      have ofValue : Json.required fields "value" (object? (place.enter 1) depth) = some value := by
        refine supplies.required rfl fun item isValue lower => ?_
        exact object?_of_form value isValue.2 (admitted item isValue.1) (by omega)
      simp [member?, isFields, ofName, ofValue]

end

/-- A value of a module's member that the reader can take over as a whole. -/
def IsTakeable : Form :=
  fun value => value.isExact = true ∧ value.nesting + 3 ≤ nestingLimit

/-- A module is read from its form. -/
theorem Module.ofJson?_of_form {module : Module} (isForm : moduleForm IsTakeable module json) :
    Module.ofJson? json = some module := by
  obtain ⟨name, doc, members, objectMembers⟩ := module
  have inOrder : List.Sublist
      ((moduleSlots IsTakeable ⟨name, doc, members, objectMembers⟩).map Prod.fst)
      ["name", "doc", "members", "object_members"] := by
    cases doc <;> simp [moduleSlots, optionalSlot]
  obtain ⟨fields, isFields, supplies⟩ := Json.exists_supplies_of_isRecord isForm inOrder (by decide)
  have admitted : ∀ value, IsTakeable value →
      ((Place.outer (nestingLimit - 2)).enter 1).admits value = true := by
    rintro value ⟨isExact, shallow⟩
    have within : value.nesting ≤ nestingLimit - 2 - 1 := by omega
    simp [Place.enter, Place.admits, isExact, within]
  have ofName : Json.required fields "name" Json.text? = some name :=
    supplies.required rfl fun _ isText _ => text?_of_isText isText
  have ofDoc : Json.optional fields "doc" Json.text? = some doc :=
    optionalText_of_supplies supplies (by cases doc <;> rfl)
  have ofList : ∀ {key : String} {list : List Member},
      (moduleSlots IsTakeable ⟨name, doc, members, objectMembers⟩).lookup key =
        some (IsArray (list.map (memberForm IsTakeable))) →
      Json.defaulted fields key []
        (Json.list? (member? (.outer (nestingLimit - 2)) (2 * json.nesting + 1))) = some list := by
    intro key list isSlot
    refine supplies.defaulted isSlot [] fun value isArray lower => ?_
    exact Json.list?_of_isArray isArray fun member _ item isMember within =>
      member?_of_form member isMember admitted (by omega)
  have ofMembers := @ofList "members" members (by cases doc <;> rfl)
  have ofObjectMembers := @ofList "object_members" objectMembers (by cases doc <;> rfl)
  simp [Module.ofJson?, isFields, ofName, ofDoc, ofMembers, ofObjectMembers]

end TypeStub.Dump
