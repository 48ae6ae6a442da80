import TypeStub.Proofs.Dump.Form
import TypeStub.Proofs.Json.Writer

/-!
Contract: the round trip of dumps.

Owns:
- that the written form of a module is of the module's form and has a text;
- that the text of a module is read as the module, also with its fields in another order and
  among fields of no meaning.
-/

namespace TypeStub.Dump

open Json (Form IsText IsBool IsArray IsRecord IsPlain)

variable {slots : List (String × Form)}

/-! ## The written form -/

theorem isRecord_object {names : List String} {given : List (Option String × Json)}
    (fills : List.Forall₂ Json.Fills slots given) : IsRecord names slots (.object given) :=
  ⟨given, given, [], rfl, by simp, fills, by simp⟩

theorem fills_optionalText (name : String) (written : Option String) :
    List.Forall₂ Json.Fills (optionalSlot name IsText written) (optionalText name written) := by
  cases written <;> simp [optionalSlot, optionalText, field, textJson, Json.Fills, IsText]

theorem parameterForm_parameterJson (parameter : Parameter) :
    parameterForm parameter (parameterJson parameter) := by
  refine isRecord_object (List.rel_append ?_ (fills_optionalText _ _))
  simp [field, textJson, Json.Fills, IsText]

theorem isArray_map {α : Type} {form : α → Form} {write : α → Json} {items : List α}
    (isForm : ∀ item ∈ items, form item (write item)) :
    IsArray (items.map form) (.array (items.map write)) := by
  refine ⟨_, rfl, ?_⟩
  rw [List.forall₂_map_left_iff, List.forall₂_map_right_iff]
  exact List.forall₂_same.mpr isForm

theorem fills_signatureFields (signature : Option (List Parameter)) :
    List.Forall₂ Json.Fills (signatureSlot signature) (signatureFields signature) := by
  cases signature with
  | none => exact .nil
  | some parameters =>
      exact .cons ⟨rfl, isArray_map fun parameter _ => parameterForm_parameterJson parameter⟩ .nil

theorem classesJson_eq (classes : List Class) :
    classesJson classes = classes.map fun cls => .object (classJsonFields cls) := by
  induction classes with
  | nil => rw [classesJson, List.map_nil]
  | cons head tail inductionHypothesis => rw [classesJson, inductionHypothesis, List.map_cons]

theorem membersJson_eq (members : List Member) : membersJson members = members.map memberJson := by
  induction members with
  | nil => rw [membersJson, List.map_nil]
  | cons head tail inductionHypothesis => rw [membersJson, inductionHypothesis, List.map_cons]

theorem isTagged_object {kind : Kind} {names : List String} {given : List (Option String × Json)}
    (fills : List.Forall₂ Json.Fills slots given) :
    IsTagged kind names slots (.object (kindField kind :: given)) :=
  isRecord_object (.cons ⟨rfl, rfl⟩ fills)

-- Over the tree: the fields of a class are the same with a tag, as a member, and without, as a base.
mutual

theorem objectForm_objectJson : ∀ object : Object, objectForm object (objectJson object)
  | .routine routine => by
      rw [objectForm, objectJson]
      refine isTagged_object ?_
      exact List.rel_append (List.rel_append (.cons ⟨rfl, rfl⟩ .nil) (fills_optionalText _ _))
        (fills_signatureFields _)
  | .descriptor doc => by
      rw [objectForm, objectJson]
      exact isTagged_object (fills_optionalText "doc" doc)
  | .classObject cls => by
      rw [objectForm, objectJson]
      exact isTagged_object (fills_classJsonFields cls)
  | .value written => by
      rw [objectForm, objectJson]
      exact isTagged_object (fills_optionalText "repr" written)

theorem fills_classJsonFields : ∀ cls : Class,
    List.Forall₂ Json.Fills (classSlots cls) (classJsonFields cls)
  | ⟨name, module, qualname, doc, bases, members, isEnum, signature⟩ => by
      rw [classSlots, classJsonFields, classForms_eq, classesJson_eq, memberForms_eq,
        membersJson_eq]
      have ofBases := @isArray_map _ (fun cls => IsRecord classFields (classSlots cls)) _ bases
        fun base inBases => isRecord_object (fills_classJsonFields base)
      have ofMembers := @isArray_map _ (memberForm anything) _ members
        fun member inMembers => memberForm_memberJson member trivial
      exact List.rel_append (List.rel_append (List.rel_append
        (.cons ⟨rfl, rfl⟩ (.cons ⟨rfl, rfl⟩ (.cons ⟨rfl, rfl⟩ .nil))) (fills_optionalText _ _))
        (.cons ⟨rfl, ofBases⟩ (.cons ⟨rfl, ofMembers⟩ (.cons ⟨rfl, rfl⟩ .nil))))
        (fills_signatureFields _)

theorem memberForm_memberJson {taken : Form} : ∀ member : Member,
    taken (objectJson member.value) → memberForm taken member (memberJson member)
  | ⟨name, value⟩, isTaken => by
      rw [memberForm, memberJson]
      exact isRecord_object (.cons ⟨rfl, rfl⟩
        (.cons ⟨rfl, isTaken, objectForm_objectJson value⟩ .nil))

end

/-! ## Plain values -/

theorem isExact_object_iff {given : List (Option String × Json)} :
    (Json.object given).isExact = true ↔
      ∀ field ∈ given, field.1.isSome = true ∧ field.2.isExact = true := by
  rw [Json.isExact]
  induction given with
  | nil => simp [Json.fieldsExact]
  | cons head tail inductionHypothesis =>
      rw [Json.fieldsExact, List.forall_mem_cons, ← inductionHypothesis]
      simp

theorem isExact_array_iff {items : List Json} :
    (Json.array items).isExact = true ↔ ∀ item ∈ items, item.isExact = true := by
  rw [Json.isExact]
  induction items with
  | nil => simp [Json.areExact]
  | cons head tail inductionHypothesis =>
      rw [Json.areExact, List.forall_mem_cons, ← inductionHypothesis]
      simp

theorem isExact_of_isPlain {json : Json} (plain : IsPlain json) : json.isExact = true := by
  induction plain with
  | text content => rfl
  | bool value => rfl
  | array plain inductionHypothesis => exact isExact_array_iff.mpr inductionHypothesis
  | object named plain inductionHypothesis =>
      exact isExact_object_iff.mpr fun field member =>
        ⟨named field member, inductionHypothesis field member⟩

/-- The fields have texts for names, and plain values. -/
def ArePlain (given : List (Option String × Json)) : Prop :=
  ∀ field ∈ given, field.1.isSome = true ∧ IsPlain field.2

theorem ArePlain.object {given : List (Option String × Json)} (plain : ArePlain given) :
    IsPlain (.object given) :=
  .object (fun field member => (plain field member).1) fun field member => (plain field member).2

theorem ArePlain.append {front back : List (Option String × Json)} (ofFront : ArePlain front)
    (ofBack : ArePlain back) : ArePlain (front ++ back) :=
  List.forall_mem_append.mpr ⟨ofFront, ofBack⟩

theorem ArePlain.cons {name : String} {value : Json} {rest : List (Option String × Json)}
    (ofValue : IsPlain value) (ofRest : ArePlain rest) : ArePlain (field name value :: rest) :=
  List.forall_mem_cons.mpr ⟨⟨rfl, ofValue⟩, ofRest⟩

theorem arePlain_nil : ArePlain [] :=
  List.forall_mem_nil _

theorem arePlain_optionalText (name : String) (written : Option String) :
    ArePlain (optionalText name written) := by
  cases written with
  | none => exact arePlain_nil
  | some text => exact .cons (.text text) arePlain_nil

theorem isPlain_parameterJson (parameter : Parameter) : IsPlain (parameterJson parameter) :=
  ArePlain.object (.append (.cons (.text _) (.cons (.text _) arePlain_nil))
    (arePlain_optionalText _ _))

theorem arePlain_signatureFields (signature : Option (List Parameter)) :
    ArePlain (signatureFields signature) := by
  cases signature with
  | none => exact arePlain_nil
  | some parameters =>
      refine .cons (.array fun item member => ?_) arePlain_nil
      obtain ⟨parameter, -, rfl⟩ := List.mem_map.mp member
      exact isPlain_parameterJson parameter

mutual

theorem isPlain_objectJson : ∀ object : Object, IsPlain (objectJson object)
  | .routine routine => by
      rw [objectJson]
      exact ArePlain.object (.cons (.text _) (.append (.append
        (.cons (.bool _) arePlain_nil) (arePlain_optionalText _ _))
        (arePlain_signatureFields _)))
  | .descriptor doc => by
      rw [objectJson]
      exact ArePlain.object (.cons (.text _) (arePlain_optionalText "doc" doc))
  | .classObject cls => by
      rw [objectJson]
      exact ArePlain.object (.cons (.text _) (arePlain_classJsonFields cls))
  | .value written => by
      rw [objectJson]
      exact ArePlain.object (.cons (.text _) (arePlain_optionalText "repr" written))

theorem arePlain_classJsonFields : ∀ cls : Class, ArePlain (classJsonFields cls)
  | ⟨name, module, qualname, doc, bases, members, isEnum, signature⟩ => by
      have ofBases : IsPlain (.array (classesJson bases)) := by
        rw [classesJson_eq]
        refine .array fun item isItem => ?_
        obtain ⟨base, inBases, rfl⟩ := List.mem_map.mp isItem
        exact (arePlain_classJsonFields base).object
      have ofMembers : IsPlain (.array (membersJson members)) := by
        rw [membersJson_eq]
        refine .array fun item isItem => ?_
        obtain ⟨member, inMembers, rfl⟩ := List.mem_map.mp isItem
        exact isPlain_memberJson member
      rw [classJsonFields]
      exact .append (.append (.append
        (.cons (.text _) (.cons (.text _) (.cons (.text _) arePlain_nil)))
        (arePlain_optionalText _ _))
        (.cons ofBases (.cons ofMembers (.cons (.bool _) arePlain_nil))))
        (arePlain_signatureFields _)

theorem isPlain_memberJson : ∀ member : Member, IsPlain (memberJson member)
  | ⟨name, value⟩ => by
      rw [memberJson]
      exact ArePlain.object (.cons (.text _) (.cons (isPlain_objectJson value) arePlain_nil))

end

theorem isPlain_toJson (module : Module) : IsPlain module.toJson := by
  have ofMembers : ∀ members : List Member, IsPlain (.array (membersJson members)) := by
    intro members
    rw [membersJson_eq]
    refine .array fun item isItem => ?_
    obtain ⟨member, -, rfl⟩ := List.mem_map.mp isItem
    exact isPlain_memberJson member
  exact ArePlain.object (.append
    (.append (.cons (.text _) arePlain_nil) (arePlain_optionalText _ _))
    (.cons (ofMembers _) (.cons (ofMembers _) arePlain_nil)))

/-! ## The round trip -/

/-- A member value lies three levels inside the module. -/
private theorem takeable_of_mem {module : Module}
    (shallow : module.toJson.nesting ≤ nestingLimit) {members : List Member} {key : String}
    (inModule : field key (.array (membersJson members)) ∈
      [field "members" (.array (membersJson module.members)),
        field "object_members" (.array (membersJson module.objectMembers))])
    {member : Member} (inMembers : member ∈ members) : IsTakeable (objectJson member.value) := by
  obtain ⟨name, value⟩ := member
  have ofMember : (objectJson value).nesting < (memberJson ⟨name, value⟩).nesting := by
    rw [memberJson]
    exact @Json.nesting_lt_of_mem_object _ (field "value" (objectJson value)) (by simp)
  have ofMembers : (memberJson ⟨name, value⟩).nesting <
      (Json.array (membersJson members)).nesting := by
    rw [membersJson_eq]
    exact Json.nesting_lt_of_mem_array (List.mem_map_of_mem inMembers)
  have ofModule : (Json.array (membersJson members)).nesting < module.toJson.nesting :=
    @Json.nesting_lt_of_mem_object _ (field key (.array (membersJson members)))
      (List.mem_append_right _ inModule)
  have within : (objectJson value).nesting + 3 ≤ nestingLimit := by omega
  exact ⟨isExact_of_isPlain (isPlain_objectJson value), within⟩

/-- The written form of a module is of its form if the reader follows its nesting. -/
theorem moduleForm_toJson {module : Module} (shallow : module.toJson.nesting ≤ nestingLimit) :
    moduleForm IsTakeable module module.toJson := by
  have ofMembers : IsArray (module.members.map (memberForm IsTakeable))
      (.array (membersJson module.members)) := by
    rw [membersJson_eq]
    exact isArray_map fun member inMembers => memberForm_memberJson member
      (takeable_of_mem shallow List.mem_cons_self inMembers)
  have ofObjectMembers : IsArray (module.objectMembers.map (memberForm IsTakeable))
      (.array (membersJson module.objectMembers)) := by
    rw [membersJson_eq]
    exact isArray_map fun member inMembers => memberForm_memberJson member
      (takeable_of_mem shallow (List.mem_cons_of_mem _ List.mem_cons_self) inMembers)
  exact isRecord_object (List.rel_append (List.rel_append
    (.cons ⟨rfl, rfl⟩ .nil) (fills_optionalText _ _))
    (.cons ⟨rfl, ofMembers⟩ (.cons ⟨rfl, ofObjectMembers⟩ .nil)))

/-- A module is read from the text of its written form, and also from any other text in which the
fields of objects stand in another order or among fields of no meaning. -/
theorem Module.readBack_of_form (module : Module) :
    (module.toJson.nesting ≤ nestingLimit →
      moduleForm IsTakeable module module.toJson ∧
        ∃ text, Json.written? module.toJson = some text ∧ Module.read? text = some module) ∧
    ∀ text json, Json.read? text = some json → moduleForm IsTakeable module json →
      Module.read? text = some module := by
  have reads : ∀ text json, Json.read? text = some json → moduleForm IsTakeable module json →
      Module.read? text = some module := by
    intro text json isText isForm
    rw [Module.read?, isText, Option.bind_some, Module.ofJson?_of_form isForm]
  refine ⟨fun shallow => ?_, reads⟩
  have isForm := moduleForm_toJson shallow
  obtain ⟨text, isWritten⟩ := (isPlain_toJson module).exists_written
  exact ⟨isForm, text, isWritten, reads text _ (Json.read?_written isWritten) isForm⟩

/-- A module with one member. -/
def constant : Module :=
  ⟨"m", none, [⟨"a", .value none⟩], []⟩

/-- That module with its fields backwards and with fields of no meaning, the value of the first
of which is beyond the numbers that a reader takes over. -/
def stirred : Json :=
  .object
    [field "x" (.number ⟨false, 1, 400, false⟩), field "object_members" (.array []),
      field "members"
        (.array [.object [field "value" (.object [field "x" .null, kindField .value]),
          field "name" (textJson "a")]]),
      field "name" (textJson "m")]

/-- The text of that. -/
def stirredText : String :=
  "\x7b\"x\":1e400,\"object_members\":[],\"members\":" ++
    "[\x7b\"value\":\x7b\"x\":null,\"kind\":\"value\"\x7d,\"name\":\"a\"\x7d]," ++
    "\"name\":\"m\"\x7d"

private theorem isRecord_reverse {names : List String}
    (given others : List (Option String × Json)) (fills : List.Forall₂ Json.Fills slots given)
    (strange : ∀ field ∈ others, ∃ name, field.1 = some name ∧ name ∉ names) :
    IsRecord names slots (.object (given ++ others).reverse) :=
  ⟨_, given, others, rfl, List.reverse_perm _, fills, strange⟩

private theorem isForm_stirred : moduleForm IsTakeable constant stirred := by
  have ofValue : objectForm (.value none) (.object [field "x" .null, kindField .value]) := by
    rw [objectForm]
    exact isRecord_reverse [kindField .value] [field "x" .null] (.cons ⟨rfl, rfl⟩ .nil)
      (by simp [field])
  have ofMember : memberForm IsTakeable ⟨"a", .value none⟩
      (.object [field "value" (.object [field "x" .null, kindField .value]),
        field "name" (textJson "a")]) := by
    rw [memberForm]
    exact isRecord_reverse [field "name" (textJson "a"), field "value" _] []
      (.cons ⟨rfl, rfl⟩ (.cons ⟨rfl, ⟨by decide, by decide⟩, ofValue⟩ .nil)) (by simp)
  exact isRecord_reverse
    [field "name" (textJson "m"), field "members" (.array [_]), field "object_members" (.array [])]
    [field "x" (.number ⟨false, 1, 400, false⟩)]
    (.cons ⟨rfl, rfl⟩ (.cons ⟨rfl, _, rfl, .cons ofMember .nil⟩ (.cons ⟨rfl, _, rfl, .nil⟩ .nil)))
    (by simp [field])

private theorem read?_stirredText : Json.read? stirredText = some stirred := by
  rfl

theorem Module.readBack_of_form_constant :
    constant.toJson.nesting ≤ nestingLimit ∧
      (∃ text, Json.written? constant.toJson = some text ∧ Module.read? text = some constant) ∧
      moduleForm IsTakeable constant stirred ∧ Json.read? stirredText = some stirred ∧
      Module.read? stirredText = some constant := by
  have shallow : constant.toJson.nesting ≤ nestingLimit := by decide
  obtain ⟨roundTrip, reads⟩ := Module.readBack_of_form constant
  exact ⟨shallow, (roundTrip shallow).2, isForm_stirred, read?_stirredText,
    reads _ _ read?_stirredText isForm_stirred⟩

/-- The value of that module's member with the number inside it. -/
def immenseValue : Json :=
  .object [kindField .value, field "x" (.number ⟨false, 1, 400, false⟩)]

/-- That module with this value. -/
def immense : Json :=
  .object
    [field "name" (textJson "m"),
      field "members" (.array [.object [field "name" (textJson "a"), field "value" immenseValue]]),
      field "object_members" (.array [])]

/-- The text of that. -/
def immenseText : String :=
  "\x7b\"name\":\"m\",\"members\":[\x7b\"name\":\"a\",\"value\":" ++
    "\x7b\"kind\":\"value\",\"x\":1e400\x7d\x7d],\"object_members\":[]\x7d"

theorem Module.unread_of_immense_number :
    moduleForm anything constant immense ∧ immense.nesting ≤ nestingLimit ∧
      Json.read? immenseText = some immense ∧ Module.read? immenseText = none := by
  have ofValue : objectForm (.value none) immenseValue := by
    rw [objectForm]
    exact ⟨_, [kindField .value], [field "x" _], rfl, .refl _, .cons ⟨rfl, rfl⟩ .nil,
      by simp [field]⟩
  have ofMember : memberForm anything ⟨"a", .value none⟩
      (.object [field "name" (textJson "a"), field "value" immenseValue]) := by
    rw [memberForm]
    exact isRecord_object (.cons ⟨rfl, rfl⟩ (.cons ⟨rfl, trivial, ofValue⟩ .nil))
  have isForm : moduleForm anything constant immense :=
    isRecord_object (.cons ⟨rfl, rfl⟩ (.cons ⟨rfl, _, rfl, .cons ofMember .nil⟩
      (.cons ⟨rfl, _, rfl, .nil⟩ .nil)))
  exact ⟨isForm, by decide, by rfl, by decide +kernel⟩

end TypeStub.Dump
