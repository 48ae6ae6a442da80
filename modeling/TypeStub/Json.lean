import TypeStub.Binary64

/-!
Contract: JSON values.

Owns:
- `Json`, the tree of a JSON text, objects with their fields in order of occurrence;
- `Json.nesting` and `Json.isExact`, which tell the values that can be taken over whole;
- `Json.record?`, which reads an object or an array as a record with named fields.

Does not own: the text of JSON (`TypeStub.Json.Reader`).

A text can hold escapes for halves of surrogate pairs that stand alone. Such a string is no
Unicode text and is kept as `none`.
-/

namespace TypeStub

/-- A number: an optional sign, and `digits` with the decimal exponent `exponent`. Of a
number with many digits only the leading ones are kept, as many as 64 bits hold. -/
structure Decimal where
  negative : Bool
  digits : Nat
  exponent : Int
  /-- The number is written without a fraction and without an exponent. -/
  integral : Bool
deriving DecidableEq, Repr

namespace Decimal

/-- The number can be taken over as a binary floating-point number of 64 bits. -/
def isFinite (number : Decimal) : Bool :=
  Binary64.holdsProduct number.digits number.exponent

/-- The natural number of 64 bits that is written, if it is one without a sign, a fraction
or an exponent. -/
def natural? (number : Decimal) : Option Nat :=
  if number.integral ∧ number.negative = false ∧ number.exponent = 0 then some number.digits
  else none

end Decimal

inductive Json where
  | null
  | bool (value : Bool)
  | number (value : Decimal)
  | text (value : Option String)
  | array (items : List Json)
  | object (fields : List (Option String × Json))
deriving Repr

namespace Json

instance : Inhabited Json := ⟨null⟩

mutual

/-- The greatest number of arrays and objects around one place of the value, itself
included. -/
def nesting : Json → Nat
  | .null => 0
  | .bool _ => 0
  | .number _ => 0
  | .text _ => 0
  | .array items => nestingOfItems items + 1
  | .object fields => nestingOfFields fields + 1

def nestingOfItems : List Json → Nat
  | [] => 0
  | head :: tail => max (nesting head) (nestingOfItems tail)

def nestingOfFields : List (Option String × Json) → Nat
  | [] => 0
  | (_, value) :: tail => max (nesting value) (nestingOfFields tail)

end

mutual

/-- Every string in the value is a text and every number is in range. -/
def isExact : Json → Bool
  | .null => true
  | .bool _ => true
  | .number value => value.isFinite
  | .text value => value.isSome
  | .array items => areExact items
  | .object fields => fieldsExact fields

def areExact : List Json → Bool
  | [] => true
  | head :: tail => isExact head && areExact tail

/-- Every field's name is a text and its value is exact. -/
def fieldsExact : List (Option String × Json) → Bool
  | [] => true
  | (name, value) :: tail => name.isSome && isExact value && fieldsExact tail

end

/-! ## Records -/

/-- The fields of an object that a record knows, by name; none may occur twice, and all
names must be texts. -/
def knownFields? (names : List String) :
    List (Option String × Json) → Option (List (String × Json))
  | [] => some []
  | (none, _) :: _ => none
  | (some name, value) :: rest =>
      match knownFields? names rest with
      | none => none
      | some known =>
          if name ∈ names then
            if (known.lookup name).isSome then none else some ((name, value) :: known)
          else some known

/-- The fields of a record with the given names in order of declaration. An object gives
fields by name, in any order and among others; an array gives them by position, from the
first on, and nothing else. -/
def record? (names : List String) : Json → Option (List (String × Json))
  | .object fields => knownFields? names fields
  | .array items => if items.length ≤ names.length then some (names.zip items) else none
  | _ => none

/-- The text that the value is. -/
def text? : Json → Option String
  | .text value => value
  | _ => none

def bool? : Json → Option Bool
  | .bool value => some value
  | _ => none

def list? {α : Type} (decode : Json → Option α) : Json → Option (List α)
  | .array items => items.mapM decode
  | _ => none

def required {α : Type} (fields : List (String × Json)) (name : String)
    (decode : Json → Option α) : Option α :=
  (fields.lookup name).bind decode

def defaulted {α : Type} (fields : List (String × Json)) (name : String) (fallback : α)
    (decode : Json → Option α) : Option α :=
  match fields.lookup name with
  | none => some fallback
  | some value => decode value

/-- A field that may be missing or null. -/
def optional {α : Type} (fields : List (String × Json)) (name : String)
    (decode : Json → Option α) : Option (Option α) :=
  match fields.lookup name with
  | none => some none
  | some .null => some none
  | some value => (decode value).map some

end Json

end TypeStub
