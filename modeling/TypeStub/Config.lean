import TypeStub.Files
import TypeStub.Files.Path
import TypeStub.Formatter
import TypeStub.Notice
import TypeStub.Profile
import TypeStub.Text.EditDistance
import TypeStub.Toml.Reader

/-!
Contract: the configuration of a run.

Owns:
- `Config`, with its standard;
- the reading of a configuration from a table, all of it or none;
- the notices about keys that nobody knows;
- the two ways to load one: by its path, where every problem is a fault, and from a
  directory, where there may be none and one that cannot be used is ignored.
-/

namespace TypeStub

/-- What a user can set for a run. -/
structure Config where
  profile : Profile
  formatter : List String
deriving DecidableEq

namespace ConfigKey

/-- How many bytes have to be inserted, deleted or replaced to make the key of a text. -/
def distance (key : ConfigKey) (text : String) : Nat :=
  Text.editDistance text.toUTF8.toList key.name.toUTF8.toList

/-- Of `first` and the keys after it, the one that the text is nearest to; of several, the
first. -/
def nearestOf (text : String) (first : ConfigKey) : List ConfigKey → ConfigKey
  | [] => first
  | key :: rest =>
      nearestOf text (if key.distance text < first.distance text then key else first) rest

/-- The key that a text is nearest to; of several, the one listed first. -/
def nearest (text : String) : ConfigKey :=
  nearestOf text .formatter all

/-- A text with at most so many bytes wrong is taken for a misspelled key. -/
def tolerance : Nat :=
  3

def ofName? (text : String) : Option ConfigKey :=
  all.find? fun key => key.name = text

end ConfigKey

namespace Config

/-- The configuration of a run that sets nothing. -/
def standard : Config where
  profile := .standard
  formatter :=
    ["python3", "-m", "black", "-t", "py311", "--pyi", "--stdin-filename",
      Formatter.filenameMark, "-"]

/-- What is reported about one key of a table. -/
def keyNotice? (name : String) : Option Notice :=
  match ConfigKey.ofName? name with
  | some _ => none
  | none =>
      let key := ConfigKey.nearest name
      if key.distance name ≤ ConfigKey.tolerance then some (.misspelledKey name key)
      else some (.unknownKey name)

/-- What is reported about the keys of a table, in ascending order. -/
def keyNotices (entries : Toml.Entries) : List Notice :=
  (NameSet.ofList (entries.map (·.1))).items.filterMap keyNotice?

/-- The strings that a table lists under a key. -/
def strings? (key : ConfigKey) (entries : Toml.Entries) :
    Except ConfigDefect (Option (List String)) :=
  match entries.lookup key.name with
  | none => .ok none
  | some value =>
      match value.items?.bind fun items => items.mapM Toml.text? with
      | none => .error (.notStringArray key)
      | some texts => .ok (some texts)

def string? (key : ConfigKey) (entries : Toml.Entries) :
    Except ConfigDefect (Option String) :=
  match entries.lookup key.name with
  | none => .ok none
  | some value =>
      match value.text? with
      | none => .error (.notString key)
      | some text => .ok (some text)

def command? (entries : Toml.Entries) : Except ConfigDefect (Option (List String)) :=
  match strings? .formatter entries with
  | .ok (some []) => .error .noProgram
  | result => result

/-- The configuration that a table describes. Lists of names add to the standard ones, and
of several defects the one of the key listed first counts. -/
def ofTable (entries : Toml.Entries) : Except ConfigDefect Config := do
  let command ← command? entries
  let blacklist ← strings? .blacklist entries
  let enumSynthetic ← strings? .enumSyntheticMembers entries
  let version ← string? .profileVersion entries
  let named := (standard.profile.withBlacklist (blacklist.getD [])).withEnumSynthetic
    (enumSynthetic.getD [])
  return { profile := { named with version := version.getD named.version },
           formatter := command.getD standard.formatter }

/-- The configuration in the file of that path. -/
def load (files : Files) (path : String) : Except Fault Config :=
  match files.readText path with
  | .error cause => .error (.io path cause)
  | .ok text =>
      match Toml.read? text with
      | none => .error (.config path .malformed)
      | some entries =>
          match ofTable entries with
          | .error defect => .error (.config path defect)
          | .ok config => .ok config

/-- What is reported about the configuration in the file of that path. -/
def loadNotices (files : Files) (path : String) : List Notice :=
  match files.readText path with
  | .error _ => []
  | .ok text =>
      match Toml.read? text with
      | none => []
      | some entries => keyNotices entries

def pathIn (directory : String) : String :=
  Path.join directory configFile

/-- The configuration of runs in a directory: its own if it has one that can be used. -/
def ofDirectory (files : Files) (directory : String) : Config :=
  if files.holds (pathIn directory) then
    match load files (pathIn directory) with
    | .ok config => config
    | .error _ => standard
  else standard

/-- What is reported about the configuration of runs in a directory. -/
def ofDirectoryNotices (files : Files) (directory : String) : List Notice :=
  if files.holds (pathIn directory) then
    loadNotices files (pathIn directory) ++
      match load files (pathIn directory) with
      | .ok _ => []
      | .error fault => [.configIgnored fault]
  else []

end Config

end TypeStub
