import TypeStub.Documentation.Directive

/-!
Contract: the part of documentation that is written for people.

Owns: `Documentation.description`, the lines without those that begin like a type
directive.
-/

namespace TypeStub.Documentation

open Text

/-- The trimmed line begins like a directive about types. -/
def isTypeLine (line : List Char) : Bool :=
  (Directive.after? ":type".toList line).isSome ||
    (Directive.after? ":rtype".toList line).isSome

/-- The trimmed lines of a text that do not begin like a directive about types. -/
def descriptionLines (doc : List Char) : List (List Char) :=
  ((lines doc).map trim).filter fun line => !isTypeLine line

/-- The description in a text: its trimmed lines but for those about types, without white
space at either end. -/
def description (doc : String) : String :=
  String.ofList (trim (unrows (descriptionLines doc.toList)))

end TypeStub.Documentation
