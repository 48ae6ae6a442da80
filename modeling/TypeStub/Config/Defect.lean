/-!
Contract: what is wrong with a configuration.

Owns:
- `ConfigKey`, the keys of a configuration;
- `ConfigDefect`, with its wording.
-/

namespace TypeStub

inductive ConfigKey where
  | formatter
  | blacklist
  | enumSyntheticMembers
  | profileVersion
deriving DecidableEq, Repr

namespace ConfigKey

/-- The keys in the order in which messages list them and a table is read. -/
def all : List ConfigKey :=
  [.formatter, .blacklist, .enumSyntheticMembers, .profileVersion]

def name : ConfigKey → String
  | .formatter => "formatter"
  | .blacklist => "blacklist"
  | .enumSyntheticMembers => "enum_synthetic_members"
  | .profileVersion => "profile_version"

end ConfigKey

/-- What is wrong with a configuration file that can be read. -/
inductive ConfigDefect where
  /-- The text is no TOML document. -/
  | malformed
  | notStringArray (key : ConfigKey)
  /-- The formatter's command is an empty array. -/
  | noProgram
  | notString (key : ConfigKey)
deriving DecidableEq, Repr

def ConfigDefect.message : ConfigDefect → String
  | .malformed => "TOML parse error"
  | .notStringArray key => "'" ++ key.name ++ "' must be an array of strings"
  | .noProgram => "'formatter' needs at least a program name"
  | .notString key => "'" ++ key.name ++ "' must be a string"

end TypeStub
