import TypeStub.NameSet

/-!
Contract: values that carry the imports they need.

Owns:
- `Resolved`, a value with the set of namespaces that a stub using it has to import;
- the ways to combine such values, none of which forgets a namespace.
-/

namespace TypeStub

/-- A value together with the namespaces that whoever uses it has to import. -/
structure Resolved (α : Type) where
  value : α
  namespaces : NameSet
deriving DecidableEq, Repr

namespace Resolved

variable {α β : Type}

/-- A value that needs no import. -/
def bare (value : α) : Resolved α :=
  ⟨value, ∅⟩

def map (f : α → β) (resolved : Resolved α) : Resolved β :=
  ⟨f resolved.value, resolved.namespaces⟩

/-- The values in order, with the imports of all of them. -/
def all (items : List (Resolved α)) : Resolved (List α) :=
  ⟨items.map (·.value), .unionAll (items.map (·.namespaces))⟩

end Resolved

end TypeStub
