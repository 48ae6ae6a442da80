/-!
Contract: the parameters of a callable as the host reports them.

Owns:
- `ParameterKind`, how an argument reaches a parameter, in the order in which kinds may
  follow each other;
- `Parameter`, a name with its kind and its default.
-/

namespace TypeStub

inductive ParameterKind where
  | positionalOnly
  | positionalOrKeyword
  | varPositional
  | keywordOnly
  | varKeyword
deriving DecidableEq, Repr

namespace ParameterKind

/-- The kinds, in the order in which they stand in a signature. -/
def all : List ParameterKind :=
  [.positionalOnly, .positionalOrKeyword, .varPositional, .keywordOnly, .varKeyword]

def rank : ParameterKind → Nat
  | .positionalOnly => 0
  | .positionalOrKeyword => 1
  | .varPositional => 2
  | .keywordOnly => 3
  | .varKeyword => 4

def isVariadic : ParameterKind → Bool
  | .varPositional => true
  | .varKeyword => true
  | _ => false

/-- The name of the kind in messages. -/
def label : ParameterKind → String
  | .positionalOnly => "PositionalOnly"
  | .positionalOrKeyword => "PositionalOrKeyword"
  | .varPositional => "VarPositional"
  | .keywordOnly => "KeywordOnly"
  | .varKeyword => "VarKeyword"

/-- The name of the kind in dumps. -/
def tag : ParameterKind → String
  | .positionalOnly => "positional_only"
  | .positionalOrKeyword => "positional_or_keyword"
  | .varPositional => "var_positional"
  | .keywordOnly => "keyword_only"
  | .varKeyword => "var_keyword"

def ofTag? (text : String) : Option ParameterKind :=
  all.find? fun kind => kind.tag = text

end ParameterKind

structure Parameter where
  name : String
  kind : ParameterKind
  /-- The written form of the default value, if the parameter has one. -/
  default : Option String
deriving DecidableEq, Repr

/-- A parameter without a default. -/
def Parameter.plain (name : String) (kind : ParameterKind) : Parameter :=
  ⟨name, kind, none⟩

end TypeStub
