import TypeStub.Dump
import TypeStub.Json.Reader

/-!
Contract: the written form of dumps.

Owns:
- the fields of every part of a dump and the JSON value of each (`toJson`);
- the readers of the parts (`ofJson?`) and of a whole text (`Module.read?`).

The value of a member carries its kind as a field among the others. To find it the reader
takes over the whole value first, so all of it has to be exact and within the limit on
nesting, fields of no meaning included. Elsewhere such fields are passed over.
-/

namespace TypeStub.Dump

open Json (required defaulted optional)

/-- The greatest nesting of arrays and objects that a reader follows. -/
def nestingLimit : Nat :=
  127

/-- What the reader knows of the place of a value. -/
inductive Place where
  /-- Outside member values, with the levels of nesting that are left. -/
  | outer (levels : Nat)
  /-- Inside a member value, which is taken over as a whole. -/
  | inner
deriving DecidableEq, Repr

namespace Place

/-- The place inside more arrays and objects. -/
def enter (levels : Nat) : Place → Place
  | .outer left => .outer (left - levels)
  | .inner => .inner

/-- A member value can be taken over at the place. -/
def admits (place : Place) (value : Json) : Bool :=
  match place with
  | .outer left => value.isExact && value.nesting ≤ left
  | .inner => true

end Place

/-! ## Kinds -/

inductive Kind where
  | routine
  | descriptor
  | classObject
  | value
deriving DecidableEq, Repr

namespace Kind

def all : List Kind :=
  [.routine, .descriptor, .classObject, .value]

def tag : Kind → String
  | .routine => "routine"
  | .descriptor => "data_descriptor"
  | .classObject => "class"
  | .value => "value"

/-- The kind that a dump means; inside a member value also by its position among the
kinds. -/
def ofJson? (place : Place) : Json → Option Kind
  | .text (some name) => all.find? fun kind => kind.tag = name
  | .number index =>
      if place = .inner then index.natural?.bind fun position => all[position]? else none
  | _ => none

/-- The values of the fields that hold a kind, and the other fields. -/
def divide : List (Option String × Json) → List Json × List (Option String × Json)
  | [] => ([], [])
  | (name, content) :: rest =>
      let divided := divide rest
      if name = some "kind" then (content :: divided.1, divided.2)
      else (divided.1, (name, content) :: divided.2)

/-- The kind of a member value, and the value without it. An object has one field for the
kind, at any position; an array begins with it. -/
def split? (place : Place) : Json → Option (Kind × Json)
  | .object fields =>
      match divide fields with
      | ([kind], others) => (ofJson? place kind).map fun found => (found, .object others)
      | _ => none
  | .array (kind :: others) => (ofJson? place kind).map fun found => (found, .array others)
  | _ => none

end Kind

/-! ## Readers -/

/-- The parameter kind that a value names, alone or as the only field of an object that
says nothing else. -/
def parameterKind? (place : Place) : Json → Option ParameterKind
  | .text (some name) => ParameterKind.ofTag? name
  | .object [(some name, .null)] => ParameterKind.ofTag? name
  | .object [(some name, .object [])] =>
      if place = .inner then ParameterKind.ofTag? name else none
  | _ => none

def parameter? (place : Place) (json : Json) : Option Parameter :=
  (json.record? ["name", "kind", "default"]).bind fun fields => do
    let name ← required fields "name" Json.text?
    let kind ← required fields "kind" (parameterKind? place)
    let written ← optional fields "default" Json.text?
    return ⟨name, kind, written⟩

def routine? (place : Place) (json : Json) : Option Routine :=
  (json.record? ["builtin", "doc", "signature"]).bind fun fields => do
    let builtin ← defaulted fields "builtin" false Json.bool?
    let doc ← optional fields "doc" Json.text?
    let signature ← optional fields "signature" (Json.list? (parameter? place))
    return ⟨builtin, doc, signature⟩

def classFields : List String :=
  ["name", "module", "qualname", "doc", "bases", "members", "is_enum", "signature"]

mutual

/-- The class that a value describes. At most `depth` classes and members lie in each
other. -/
def class? (place : Place) : (depth : Nat) → Json → Option Class
  | 0, _ => none
  | depth + 1, json =>
      (json.record? classFields).bind fun fields => do
        let name ← required fields "name" Json.text?
        let module ← required fields "module" Json.text?
        let qualname ← defaulted fields "qualname" "" Json.text?
        let doc ← optional fields "doc" Json.text?
        let bases ← defaulted fields "bases" [] (Json.list? (class? (place.enter 2) depth))
        let members ← defaulted fields "members" [] (Json.list? (member? (place.enter 2) depth))
        let isEnum ← defaulted fields "is_enum" false Json.bool?
        let signature ← optional fields "signature" (Json.list? (parameter? place))
        return ⟨name, module, qualname, doc, bases, members, isEnum, signature⟩

def member? (place : Place) : (depth : Nat) → Json → Option Member
  | 0, _ => none
  | depth + 1, json =>
      (json.record? ["name", "value"]).bind fun fields => do
        let name ← required fields "name" Json.text?
        let value ← required fields "value" (object? (place.enter 1) depth)
        return ⟨name, value⟩

def object? (place : Place) : (depth : Nat) → Json → Option Object
  | 0, _ => none
  | depth + 1, json =>
      if place.admits json then
        (Kind.split? place json).bind fun (kind, content) =>
          match kind with
          | .routine => (routine? .inner content).map .routine
          | .descriptor =>
              (content.record? ["doc"]).bind fun fields =>
                (optional fields "doc" Json.text?).map .descriptor
          | .classObject => (class? .inner depth content).map .classObject
          | .value =>
              (content.record? ["repr"]).bind fun fields =>
                (optional fields "repr" Json.text?).map .value
      else none

end

def Class.ofJson? (json : Json) : Option Class :=
  class? (.outer nestingLimit) (2 * json.nesting + 1) json

def Member.ofJson? (json : Json) : Option Member :=
  member? (.outer nestingLimit) (2 * json.nesting + 1) json

def Module.ofJson? (json : Json) : Option Module :=
  (json.record? ["name", "doc", "members", "object_members"]).bind fun fields => do
    let memberList := Json.list? (member? (.outer (nestingLimit - 2)) (2 * json.nesting + 1))
    let name ← required fields "name" Json.text?
    let doc ← optional fields "doc" Json.text?
    let members ← defaulted fields "members" [] memberList
    let objectMembers ← defaulted fields "object_members" [] memberList
    return ⟨name, doc, members, objectMembers⟩

def Module.read? (text : String) : Option Module :=
  (Json.read? text).bind Module.ofJson?

/-! ## Written form -/

def field (name : String) (value : Json) : Option String × Json :=
  (some name, value)

def textJson (text : String) : Json :=
  .text (some text)

/-- The field for an optional text, left out when absent. -/
def optionalText (name : String) (text : Option String) : List (Option String × Json) :=
  text.toList.map fun found => field name (textJson found)

def parameterJson (parameter : Parameter) : Json :=
  .object ([field "name" (textJson parameter.name),
    field "kind" (textJson parameter.kind.tag)] ++ optionalText "default" parameter.default)

def signatureFields (signature : Option (List Parameter)) : List (Option String × Json) :=
  signature.toList.map fun parameters => field "signature" (.array (parameters.map parameterJson))

def routineFields (routine : Routine) : List (Option String × Json) :=
  [field "builtin" (.bool routine.builtin)] ++ optionalText "doc" routine.doc ++
    signatureFields routine.signature

def kindField (kind : Kind) : Option String × Json :=
  field "kind" (textJson kind.tag)

mutual

def objectJson : Object → Json
  | .routine routine => .object (kindField .routine :: routineFields routine)
  | .descriptor doc => .object (kindField .descriptor :: optionalText "doc" doc)
  | .classObject cls => .object (kindField .classObject :: classJsonFields cls)
  | .value written => .object (kindField .value :: optionalText "repr" written)

def classJsonFields : Class → List (Option String × Json)
  | ⟨name, module, qualname, doc, bases, members, isEnum, signature⟩ =>
      [field "name" (textJson name), field "module" (textJson module),
        field "qualname" (textJson qualname)] ++ optionalText "doc" doc ++
        [field "bases" (.array (classesJson bases)),
          field "members" (.array (membersJson members)), field "is_enum" (.bool isEnum)] ++
        signatureFields signature

def memberJson : Member → Json
  | ⟨name, value⟩ => .object [field "name" (textJson name), field "value" (objectJson value)]

/-- The values of bases, which carry no kind. -/
def classesJson : List Class → List Json
  | [] => []
  | head :: tail => .object (classJsonFields head) :: classesJson tail

def membersJson : List Member → List Json
  | [] => []
  | head :: tail => memberJson head :: membersJson tail

end

def Module.toJson (module : Module) : Json :=
  .object ([field "name" (textJson module.name)] ++ optionalText "doc" module.doc ++
    [field "members" (.array (membersJson module.members)),
      field "object_members" (.array (membersJson module.objectMembers))])

end TypeStub.Dump
