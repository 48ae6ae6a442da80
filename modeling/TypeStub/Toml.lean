/-!
Contract: TOML tables.

Owns:
- `Toml`, the tree of a document, which keeps strings and arrays and of other scalars only
  that they are there;
- the rules of definition: how dotted keys and headers make tables, and which of them may be
  written into later.

Does not own: the text of a document (`TypeStub.Toml.Reader`).
-/

namespace TypeStub

/-- How a table came to be. -/
inductive TableForm where
  /-- By its header; the root is one too. -/
  | header
  /-- As the parent of a table with a header. -/
  | implied
  /-- By dotted keys. -/
  | dotted
deriving DecidableEq, Repr

inductive Toml where
  | text (value : String)
  /-- A number, a truth value or a time. -/
  | scalar
  | array (items : List Toml)
  /-- A table in braces, to which nothing can be added. -/
  | closed (entries : List (String × Toml))
  | table (form : TableForm) (entries : List (String × Toml))
  /-- An array whose elements are tables with a header of two brackets. -/
  | tables (elements : List (List (String × Toml)))
deriving Repr

namespace Toml

/-- The entries of a table, in order of definition. -/
abbrev Entries := List (String × Toml)

/-- The items of the value, if it is an array. -/
def items? : Toml → Option (List Toml)
  | .array items => some items
  | .tables elements => some (elements.map (.table .header))
  | _ => none

def text? : Toml → Option String
  | .text value => some value
  | _ => none

namespace Entries

def replace (key : String) (value : Toml) : Entries → Entries
  | [] => []
  | (name, old) :: rest =>
      if name = key then (name, value) :: rest else (name, old) :: replace key value rest

/-- The entries with `value` for `key`, in its place or as the last. -/
def put (entries : Entries) (key : String) (value : Toml) : Entries :=
  if (entries.lookup key).isSome then replace key value entries else entries ++ [(key, value)]

/-- Change the table that a path leads to, making the tables on the way that are missing.
The path enters an array of tables at its last element. A path of dotted keys does not enter
a table that has a header, and no path enters any other value. -/
def change (dotted : Bool) (edit : TableForm → Entries → Option Entries) :
    (path : List String) → TableForm → Entries → Option Entries
  | [], form, entries => edit form entries
  | key :: path, _, entries =>
      match entries.lookup key with
      | none =>
          let form := if dotted then .dotted else .implied
          (change dotted edit path form []).map fun inner =>
            entries.put key (.table form inner)
      | some (.table form inner) =>
          if dotted ∧ form = .header then none
          else
            (change dotted edit path form inner).map fun changed =>
              entries.put key (.table form changed)
      | some (.tables elements) =>
          match elements.getLast? with
          | none => none
          | some last =>
              (change dotted edit path .header last).map fun changed =>
                entries.put key (.tables (elements.dropLast ++ [changed]))
      | some _ => none

/-- Give a key of a table its value. Only a table of dotted keys takes a value through
dotted keys, and a key takes a value once. -/
def assign (throughDots : Bool) (key : String) (value : Toml) (form : TableForm)
    (entries : Entries) : Option Entries :=
  if throughDots ≠ decide (form = .dotted) then none
  else if (entries.lookup key).isSome then none
  else some (entries.put key value)

/-- Define a value by the keys `path` and a last key, from the given table. -/
def define (path : List String) (key : String) (value : Toml) (form : TableForm)
    (entries : Entries) : Option Entries :=
  change true (assign (!path.isEmpty) key value) path form entries

/-- Open a table by its header. A table that is only implied becomes one with a header, and
the last entry. -/
def openTable (key : String) (_form : TableForm) (entries : Entries) : Option Entries :=
  match entries.lookup key with
  | none => some (entries.put key (.table .header []))
  | some (.table .implied inner) =>
      some (entries.filter (·.1 ≠ key) ++ [(key, .table .header inner)])
  | some _ => none

/-- Add an element to an array of tables by its header. -/
def openElement (key : String) (_form : TableForm) (entries : Entries) : Option Entries :=
  match entries.lookup key with
  | none => some (entries.put key (.tables [[]]))
  | some (.tables elements) => some (entries.put key (.tables (elements ++ [[]])))
  | some _ => none

/-- Put a value into the table with the header `header` by dotted keys. -/
def defineUnder (header path : List String) (key : String) (value : Toml) (root : Entries) :
    Option Entries :=
  change false (define path key value) header .header root

end Entries

end Toml

end TypeStub
