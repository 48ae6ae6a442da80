import TypeStub.Config
import TypeStub.Proofs.FileTree
import TypeStub.Proofs.Outcome

/-!
Contract: a configuration is taken from a table as a whole or not at all.

Owns:
- `Config.IsUsable`, the tables that a configuration can be taken from, and `Config.Describes`,
  the configuration that such a table describes;
- `Config.Offends`, what is wrong with a table at a key;
- `Config.load_all_or_nothing`, what the two ways to load a configuration make of a file.

Does not own: the text of a table (`TypeStub.Toml.Reader`), what is reported about unknown keys
(`TypeStub.Proofs.Config.Suggestion`).
-/

namespace TypeStub

namespace Config

variable {entries others : Toml.Entries} {key : ConfigKey} {config : Config}
  {defect : ConfigDefect} {value : Toml}

/-! ## Values -/

/-- The value is an array of these strings. -/
def IsStrings (value : Toml) (texts : List String) : Prop :=
  value.items? = some (texts.map .text)

/-- The value is this string. -/
def IsString (value : Toml) (text : String) : Prop :=
  value = .text text

/-- The strings that an array consists of. -/
def textsOf? (value : Toml) : Option (List String) :=
  value.items?.bind fun items => items.mapM Toml.text?

theorem text?_eq_some_iff {text : String} : value.text? = some text ↔ IsString value text := by
  cases value <;> simp [Toml.text?, IsString]

private theorem mapM_text?_eq_some_iff {items : List Toml} {texts : List String} :
    items.mapM Toml.text? = some texts ↔ items = texts.map .text := by
  induction items generalizing texts with
  | nil => cases texts <;> simp
  | cons item items inductionHypothesis =>
      cases texts <;>
        simp [Option.bind_eq_some_iff, text?_eq_some_iff, IsString, inductionHypothesis]

theorem textsOf?_eq_some_iff {texts : List String} :
    textsOf? value = some texts ↔ IsStrings value texts := by
  simp only [textsOf?, Option.bind_eq_some_iff, mapM_text?_eq_some_iff, IsStrings]
  constructor
  · rintro ⟨items, isArray, rfl⟩
    exact isArray
  · exact fun isArray => ⟨_, isArray, rfl⟩

/-- An array consists of one list of strings at most. -/
theorem IsStrings.unique {texts more : List String} (isStrings : IsStrings value texts)
    (again : IsStrings value more) : texts = more :=
  Option.some.inj ((textsOf?_eq_some_iff.mpr isStrings).symm.trans (textsOf?_eq_some_iff.mpr again))

section

variable {α : Type} {read : Toml → Option α} {reads : Toml → α → Prop} {given : Option Toml}
  {found : Option α}

/-- A value that need not be there. If it is, it has to be one that can be read. -/
def readGiven (read : Toml → Option α) (defect : ConfigDefect) :
    Option Toml → Except ConfigDefect (Option α)
  | none => .ok none
  | some value =>
      match read value with
      | none => .error defect
      | some found => .ok (some found)

theorem readGiven_eq_ok_iff (isRead : ∀ value found, read value = some found ↔ reads value found) :
    readGiven read defect given = .ok found ↔ Option.Rel reads given found := by
  constructor
  · intro taken
    cases given with
    | none =>
        cases taken
        exact .none
    | some value =>
        rw [readGiven] at taken
        split at taken
        · cases taken
        · rename_i isFound
          cases taken
          exact .some ((isRead _ _).mp isFound)
  · intro related
    cases related with
    | none => rfl
    | some isFound => simp only [readGiven, (isRead _ _).mpr isFound]

theorem readGiven_eq_error_iff {other : ConfigDefect}
    (isRead : ∀ value found, read value = some found ↔ reads value found) :
    readGiven read defect given = .error other ↔
      other = defect ∧ ∃ value, given = some value ∧ ∀ found, ¬ reads value found := by
  cases given with
  | none => simp [readGiven]
  | some value =>
      cases outcome : read value with
      | none =>
          have unread : ∀ found, ¬ reads value found := by
            intro found isFound
            rw [(isRead _ _).mpr isFound] at outcome
            cases outcome
          simp [readGiven, outcome, unread, eq_comm]
      | some found =>
          have isFound := (isRead _ _).mp outcome
          simp only [readGiven, outcome, reduceCtorEq, false_iff]
          rintro ⟨-, _, same, unread⟩
          cases same
          exact unread found isFound

end

/-! ## What is wrong at a key -/

/-- What is wrong with a table at a key. -/
inductive Offends (entries : Toml.Entries) : ConfigKey → ConfigDefect → Prop
  | notStrings {key : ConfigKey} {value : Toml} (isList : key ≠ .profileVersion)
      (given : entries.lookup key.name = some value) (other : ∀ texts, ¬ IsStrings value texts) :
      Offends entries key (.notStringArray key)
  | empty {value : Toml} (given : entries.lookup ConfigKey.formatter.name = some value)
      (isEmpty : IsStrings value []) :
      Offends entries .formatter .noProgram
  | notString {value : Toml} (given : entries.lookup ConfigKey.profileVersion.name = some value)
      (other : ∀ text, ¬ IsString value text) :
      Offends entries .profileVersion (.notString .profileVersion)

/-- The message begins with the key that it is about. -/
theorem Offends.message (offends : Offends entries key defect) :
    ∃ said, defect.message = "'" ++ key.name ++ "'" ++ said := by
  cases offends with
  | notStrings =>
      exact ⟨" must be an array of strings", by simp [ConfigDefect.message, String.append_assoc]⟩
  | empty => exact ⟨" needs at least a program name", rfl⟩
  | notString => exact ⟨" must be a string", rfl⟩

/-- What a table lists or says under a key, as `reads` takes the value. -/
def Gives {α : Type} (entries : Toml.Entries) (key : ConfigKey) (reads : Toml → α → Prop)
    (found : Option α) : Prop :=
  Option.Rel reads (entries.lookup key.name) found

theorem gives_some_iff {α : Type} {reads : Toml → α → Prop} {found : α} :
    Gives entries key reads (some found) ↔
      ∃ value, entries.lookup key.name = some value ∧ reads value found := by
  unfold Gives
  cases entries.lookup key.name with
  | none => simp
  | some value => simp

theorem exists_gives_iff {α : Type} {reads : Toml → α → Prop} :
    (∃ found, Gives entries key reads found) ↔
      ∀ value, entries.lookup key.name = some value → ∃ found, reads value found := by
  unfold Gives
  cases entries.lookup key.name with
  | none =>
      simp only [reduceCtorEq, false_implies, implies_true, iff_true]
      exact ⟨none, .none⟩
  | some value =>
      simp only [Option.some.injEq, forall_eq']
      constructor
      · rintro ⟨found, related⟩
        cases related with
        | some isFound => exact ⟨_, isFound⟩
      · exact fun ⟨found, isFound⟩ => ⟨some found, .some isFound⟩

private theorem strings?_eq_readGiven (key : ConfigKey) (entries : Toml.Entries) :
    strings? key entries =
      readGiven textsOf? (.notStringArray key) (entries.lookup key.name) := by
  rw [strings?]
  cases entries.lookup key.name with
  | none => rfl
  | some value =>
      rw [readGiven]
      cases read : textsOf? value <;> rw [textsOf?] at read <;> simp only [read]

private theorem string?_eq_readGiven (key : ConfigKey) (entries : Toml.Entries) :
    string? key entries = readGiven Toml.text? (.notString key) (entries.lookup key.name) := by
  rw [string?]
  cases entries.lookup key.name with
  | none => rfl
  | some value =>
      rw [readGiven]
      cases read : value.text? <;> simp only [read]

theorem strings?_eq_ok_iff {found : Option (List String)} :
    strings? key entries = .ok found ↔ Gives entries key IsStrings found := by
  rw [strings?_eq_readGiven]
  exact readGiven_eq_ok_iff fun _ _ => textsOf?_eq_some_iff

theorem string?_eq_ok_iff {found : Option String} :
    string? key entries = .ok found ↔ Gives entries key IsString found := by
  rw [string?_eq_readGiven]
  exact readGiven_eq_ok_iff fun _ _ => text?_eq_some_iff

theorem command?_eq_ok_iff {found : Option (List String)} :
    command? entries = .ok found ↔ Gives entries .formatter IsStrings found ∧ found ≠ some [] := by
  rw [← strings?_eq_ok_iff, command?]
  split
  · rename_i empty
    rw [empty]
    simp only [reduceCtorEq, false_iff, Except.ok.injEq]
    rintro ⟨rfl, nonempty⟩
    exact nonempty rfl
  · rename_i nonempty
    constructor
    · intro listed
      refine ⟨listed, ?_⟩
      rintro rfl
      exact nonempty listed
    · exact And.left

theorem strings?_eq_error_iff :
    strings? key entries = .error defect ↔ defect = .notStringArray key ∧
      ∃ value, entries.lookup key.name = some value ∧ ∀ texts, ¬ IsStrings value texts := by
  rw [strings?_eq_readGiven]
  exact readGiven_eq_error_iff fun _ _ => textsOf?_eq_some_iff

theorem names_offends_iff (isList : key ≠ .profileVersion) (notFormatter : key ≠ .formatter) :
    Offends entries key defect ↔ strings? key entries = .error defect := by
  rw [strings?_eq_error_iff]
  constructor
  · intro offends
    cases offends with
    | notStrings isList given other => exact ⟨rfl, _, given, other⟩
    | empty => exact absurd rfl notFormatter
    | notString => exact absurd rfl isList
  · rintro ⟨rfl, value, given, other⟩
    exact .notStrings isList given other

theorem version_offends_iff :
    Offends entries .profileVersion defect ↔ string? .profileVersion entries = .error defect := by
  rw [string?_eq_readGiven, readGiven_eq_error_iff fun _ _ => text?_eq_some_iff]
  constructor
  · intro offends
    cases offends with
    | notStrings isList => exact absurd rfl isList
    | notString given other => exact ⟨rfl, _, given, other⟩
  · rintro ⟨rfl, value, given, other⟩
    exact .notString given other

theorem command_offends_iff :
    Offends entries .formatter defect ↔ command? entries = .error defect := by
  rw [command?]
  constructor
  · intro offends
    cases offends with
    | notStrings isList given other =>
        rw [strings?_eq_error_iff.mpr ⟨rfl, _, given, other⟩]
    | empty given isEmpty =>
        rw [strings?_eq_ok_iff.mpr (gives_some_iff.mpr ⟨_, given, isEmpty⟩)]
  · intro refused
    split at refused
    · rename_i listed
      cases refused
      obtain ⟨value, given, isEmpty⟩ := gives_some_iff.mp (strings?_eq_ok_iff.mp listed)
      exact .empty given isEmpty
    · obtain ⟨rfl, value, given, other⟩ := strings?_eq_error_iff.mp refused
      exact .notStrings (by decide) given other

/-! ## Tables -/

/-- The table that a configuration can be taken from: what is there under a known key is an array
of strings, which is not empty for the formatter, or a string for the version. -/
structure IsUsable (entries : Toml.Entries) : Prop where
  lists : ∀ key : ConfigKey, key ≠ .profileVersion → ∀ value, entries.lookup key.name = some value →
    ∃ texts, IsStrings value texts
  program : ∀ value, entries.lookup ConfigKey.formatter.name = some value → ¬ IsStrings value []
  version : ∀ value, entries.lookup ConfigKey.profileVersion.name = some value →
    ∃ text, IsString value text

/-- The configuration has what the table gives and for the rest what is standard. Listed names
are added to the standard ones. -/
structure Describes (entries : Toml.Entries) (config : Config) : Prop where
  formatter : ∃ listed, Gives entries .formatter IsStrings listed ∧ listed ≠ some [] ∧
    config.formatter = listed.getD standard.formatter
  blacklist : ∃ listed, Gives entries .blacklist IsStrings listed ∧
    ∀ name, name ∈ config.profile.blacklist ↔
      name ∈ standard.profile.blacklist ∨ name ∈ listed.getD []
  enumSynthetic : ∃ listed, Gives entries .enumSyntheticMembers IsStrings listed ∧
    ∀ name, name ∈ config.profile.enumSynthetic ↔
      name ∈ standard.profile.enumSynthetic ∨ name ∈ listed.getD []
  version : ∃ given, Gives entries .profileVersion IsString given ∧
    config.profile.version = given.getD standard.profile.version
  objectMembers : config.profile.objectMembers = standard.profile.objectMembers

theorem ofTable_eq_ok_iff : ofTable entries = .ok config ↔ Describes entries config := by
  simp only [ofTable, Outcome.bind_eq_ok_iff, command?_eq_ok_iff, strings?_eq_ok_iff,
    string?_eq_ok_iff]
  constructor
  · rintro ⟨command, ⟨ofCommand, nonempty⟩, names, ofNames, enums, ofEnums, version, ofVersion,
      made⟩
    cases made
    exact ⟨⟨command, ofCommand, nonempty, rfl⟩,
      ⟨names, ofNames, fun name => by simp [Profile.withBlacklist, Profile.withEnumSynthetic]⟩,
      ⟨enums, ofEnums, fun name => by simp [Profile.withBlacklist, Profile.withEnumSynthetic]⟩,
      ⟨version, ofVersion, rfl⟩, rfl⟩
  · rintro ⟨⟨command, ofCommand, nonempty, isCommand⟩, ⟨names, ofNames, isNames⟩,
      ⟨enums, ofEnums, isEnums⟩, ⟨version, ofVersion, isVersion⟩, isObjects⟩
    refine ⟨command, ⟨ofCommand, nonempty⟩, names, ofNames, enums, ofEnums, version, ofVersion, ?_⟩
    have sameNames : standard.profile.blacklist ∪ NameSet.ofList (names.getD []) =
        config.profile.blacklist := by
      ext name
      simp [isNames name]
    have sameEnums : standard.profile.enumSynthetic ∪ NameSet.ofList (enums.getD []) =
        config.profile.enumSynthetic := by
      ext name
      simp [isEnums name]
    simp only [Profile.withBlacklist, Profile.withEnumSynthetic, sameNames, sameEnums,
      ← isCommand, ← isVersion, ← isObjects]
    rfl

theorem exists_ofTable_iff : (∃ config, ofTable entries = .ok config) ↔ IsUsable entries := by
  have taken : (∃ config, ofTable entries = .ok config) ↔
      (∃ listed, Gives entries .formatter IsStrings listed ∧ listed ≠ some []) ∧
        (∃ listed, Gives entries .blacklist IsStrings listed) ∧
        (∃ listed, Gives entries .enumSyntheticMembers IsStrings listed) ∧
        ∃ given, Gives entries .profileVersion IsString given := by
    simp only [ofTable, Outcome.bind_eq_ok_iff, command?_eq_ok_iff, strings?_eq_ok_iff,
      string?_eq_ok_iff]
    constructor
    · rintro ⟨-, command, ofCommand, names, ofNames, enums, ofEnums, version, ofVersion, -⟩
      exact ⟨⟨command, ofCommand⟩, ⟨names, ofNames⟩, ⟨enums, ofEnums⟩, version, ofVersion⟩
    · rintro ⟨⟨command, ofCommand⟩, ⟨names, ofNames⟩, ⟨enums, ofEnums⟩, version, ofVersion⟩
      exact ⟨_, command, ofCommand, names, ofNames, enums, ofEnums, version, ofVersion, rfl⟩
  rw [taken, exists_gives_iff, exists_gives_iff, exists_gives_iff]
  constructor
  · rintro ⟨⟨listed, ofListed, nonempty⟩, names, enums, version⟩
    refine ⟨?_, ?_, version⟩
    · intro key isList
      cases key with
      | formatter => exact exists_gives_iff.mp ⟨listed, ofListed⟩
      | blacklist => exact names
      | enumSyntheticMembers => exact enums
      | profileVersion => exact absurd rfl isList
    · intro value given isEmpty
      rw [Gives, given] at ofListed
      cases ofListed with
      | some isListed => exact nonempty (congrArg some (IsStrings.unique isListed isEmpty))
  · rintro ⟨lists, program, version⟩
    obtain ⟨listed, ofListed⟩ := exists_gives_iff.mpr (lists .formatter (by decide))
    refine ⟨⟨listed, ofListed, ?_⟩, lists .blacklist (by decide),
      lists .enumSyntheticMembers (by decide), version⟩
    rintro rfl
    obtain ⟨value, given, isEmpty⟩ := gives_some_iff.mp ofListed
    exact program value given isEmpty

/-! ## The first defect -/

/-- Why an outcome is none. -/
def error? {ε α : Type} : Except ε α → Option ε
  | .error fault => some fault
  | .ok _ => none

theorem error?_eq_some_iff {ε α : Type} {outcome : Except ε α} {fault : ε} :
    error? outcome = some fault ↔ outcome = .error fault := by
  cases outcome <;> simp [error?]

def defectAt? (entries : Toml.Entries) : ConfigKey → Option ConfigDefect
  | .formatter => error? (command? entries)
  | .blacklist => error? (strings? .blacklist entries)
  | .enumSyntheticMembers => error? (strings? .enumSyntheticMembers entries)
  | .profileVersion => error? (string? .profileVersion entries)

theorem defectAt?_eq_some_iff :
    defectAt? entries key = some defect ↔ Offends entries key defect := by
  cases key with
  | formatter => exact error?_eq_some_iff.trans command_offends_iff.symm
  | blacklist => exact error?_eq_some_iff.trans (names_offends_iff (by decide) (by decide)).symm
  | enumSyntheticMembers =>
      exact error?_eq_some_iff.trans (names_offends_iff (by decide) (by decide)).symm
  | profileVersion => exact error?_eq_some_iff.trans version_offends_iff.symm

/-- The keys are read in the order in which they are listed. -/
theorem error?_ofTable (entries : Toml.Entries) :
    error? (ofTable entries) = ConfigKey.all.findSome? (defectAt? entries) := by
  simp only [ConfigKey.all, List.findSome?, defectAt?, ofTable]
  cases command? entries with
  | error defect => rfl
  | ok command =>
      cases strings? .blacklist entries with
      | error defect => rfl
      | ok names =>
          cases strings? .enumSyntheticMembers entries with
          | error defect => rfl
          | ok enums => cases string? .profileVersion entries <;> rfl

/-- The key is the first one with which something is wrong, and the defect says what. -/
def IsFirstDefect (entries : Toml.Entries) (key : ConfigKey) (defect : ConfigDefect) : Prop :=
  ∃ before after, ConfigKey.all = before ++ key :: after ∧ Offends entries key defect ∧
    ∀ earlier ∈ before, ∀ other, ¬ Offends entries earlier other

theorem IsFirstDefect.message (isFirst : IsFirstDefect entries key defect) :
    ∃ said, defect.message = "'" ++ key.name ++ "'" ++ said := by
  obtain ⟨-, -, -, offends, -⟩ := isFirst
  exact offends.message

theorem ofTable_eq_error_iff :
    ofTable entries = .error defect ↔ ∃ key, IsFirstDefect entries key defect := by
  rw [← error?_eq_some_iff, error?_ofTable, List.findSome?_eq_some_iff]
  simp only [defectAt?_eq_some_iff, Option.eq_none_iff_forall_ne_some, ne_eq, IsFirstDefect]
  constructor
  · rintro ⟨before, key, after, found⟩
    exact ⟨key, before, after, found⟩
  · rintro ⟨key, before, after, found⟩
    exact ⟨before, key, after, found⟩

/-- The tables have the same under every known key. Unknown keys are not compared. -/
def AgreeOnKeys (entries others : Toml.Entries) : Prop :=
  ∀ key : ConfigKey, entries.lookup key.name = others.lookup key.name

theorem ofTable_congr (agree : AgreeOnKeys entries others) : ofTable entries = ofTable others := by
  have sameStrings : ∀ key, strings? key entries = strings? key others := by
    intro key
    rw [strings?_eq_readGiven, strings?_eq_readGiven, agree key]
  have sameString : string? .profileVersion entries = string? .profileVersion others := by
    rw [string?_eq_readGiven, string?_eq_readGiven, agree .profileVersion]
  simp only [ofTable, command?, sameStrings, sameString]

/-! ## Files -/

variable {tree : FileTree} {path text : String}

theorem load_of_read {files : Files} (isText : files.readText path = .ok text)
    (parsed : Toml.read? text = some entries) :
    load files path = (ofTable entries).mapError (.config path) := by
  rw [load, isText]
  simp only [parsed]
  cases ofTable entries <;> rfl

/-- What can be loaded is there. -/
theorem holds_of_load (loaded : load tree.files path = .ok config) : tree.holds path = true := by
  rw [FileTree.holds]
  cases found : tree.find path with
  | ok node => rfl
  | error cause =>
      have unread : tree.files.readText path = .error cause := by
        simp [Files.readText, FileTree.files, FileTree.read, found, bind, Except.bind]
      rw [load, unread] at loaded
      cases loaded

theorem ofDirectory_of_load {directory : String}
    (loaded : load tree.files (pathIn directory) = .ok config) :
    ofDirectory tree.files directory = config := by
  have held : tree.files.holds (pathIn directory) = true := holds_of_load loaded
  rw [ofDirectory, if_pos held, loaded]

theorem ofDirectory_of_fault {directory : String} {fault : Fault}
    (refused : load tree.files (pathIn directory) = .error fault) :
    ofDirectory tree.files directory = standard := by
  rw [ofDirectory, refused]
  split <;> rfl

/-- A file that holds a table gives the configuration that the table describes, if the table is
usable, and is refused for the first key that is not all right otherwise. Unknown keys make no
difference. A directory takes the same configuration from the file, or the standard one. -/
theorem load_all_or_nothing (isText : tree.files.readText path = .ok text)
    (parsed : Toml.read? text = some entries) :
    ((∃ config, load tree.files path = .ok config) ↔ IsUsable entries) ∧
      (∀ config, load tree.files path = .ok config ↔ Describes entries config) ∧
      (∀ fault, load tree.files path = .error fault ↔
        ∃ key defect, IsFirstDefect entries key defect ∧ fault = .config path defect ∧
          ∃ said, defect.message = "'" ++ key.name ++ "'" ++ said) ∧
      (∀ (other : FileTree) (otherText : String) (others : Toml.Entries),
        other.files.readText path = .ok otherText → Toml.read? otherText = some others →
          AgreeOnKeys entries others → load other.files path = load tree.files path) ∧
      ∀ directory, pathIn directory = path →
        (∀ config, load tree.files path = .ok config →
          ofDirectory tree.files directory = config) ∧
        ∀ fault, load tree.files path = .error fault →
          ofDirectory tree.files directory = standard := by
  have loads := load_of_read isText parsed
  have loads_iff : ∀ config, load tree.files path = .ok config ↔ ofTable entries = .ok config := by
    intro config
    rw [loads]
    cases ofTable entries <;> simp [Except.mapError]
  have refuses_iff : ∀ fault, load tree.files path = .error fault ↔
      ∃ defect, ofTable entries = .error defect ∧ fault = .config path defect := by
    intro fault
    rw [loads]
    cases ofTable entries <;> simp [Except.mapError, eq_comm]
  refine ⟨?_, fun config => (loads_iff config).trans ofTable_eq_ok_iff, fun fault => ?_, ?_, ?_⟩
  · rw [← exists_ofTable_iff]
    exact exists_congr loads_iff
  · rw [refuses_iff]
    constructor
    · rintro ⟨defect, refused, isFault⟩
      obtain ⟨key, isFirst⟩ := ofTable_eq_error_iff.mp refused
      obtain ⟨said, isMessage⟩ := isFirst.message
      exact ⟨key, defect, isFirst, isFault, said, isMessage⟩
    · rintro ⟨key, defect, isFirst, isFault, -⟩
      exact ⟨defect, ofTable_eq_error_iff.mpr ⟨key, isFirst⟩, isFault⟩
  · intro other otherText others isOther parsedOther agree
    rw [load_of_read isOther parsedOther, loads, ofTable_congr agree]
  · rintro directory rfl
    exact ⟨fun config => ofDirectory_of_load, fun fault => ofDirectory_of_fault⟩

/-- Settings of which the last one cannot be used. -/
def lateDefect : String :=
  "formatter = [\"ruff\", \"-\"]\nblacklist = [\"__reduce__\"]\ncolour = 1\nprofile_version = 3\n"

/-- A directory with these settings. -/
def misconfigured : FileTree :=
  FileTree.empty.put [".docstub.toml"] (.file lateDefect.toUTF8)

private theorem readText_misconfigured :
    misconfigured.files.readText "./.docstub.toml" = .ok lateDefect := by
  have allowed : FileTree.checkPath "./.docstub.toml" = .ok () :=
    FileTree.checkPath_eq_ok_iff.mpr (by decide)
  have found : misconfigured.read "./.docstub.toml" = .ok lateDefect.toUTF8 := by
    rw [FileTree.read, FileTree.find, FileTree.locate, allowed]
    rfl
  simp only [Files.readText, FileTree.files, found, Utf8.decode_toUTF8]

theorem load_all_or_nothing_lateDefect :
    ∃ entries, misconfigured.files.readText "./.docstub.toml" = .ok lateDefect ∧
      Toml.read? lateDefect = some entries ∧
      load misconfigured.files "./.docstub.toml" =
        .error (.config "./.docstub.toml" (.notString .profileVersion)) ∧
      ofDirectory misconfigured.files "." = standard := by
  have defects : (Toml.read? lateDefect).map (fun entries => ConfigKey.all.map (defectAt? entries)) =
      some [none, none, none, some (.notString .profileVersion)] := by decide +kernel
  obtain ⟨entries, parsed, atKeys⟩ := Option.map_eq_some_iff.mp defects
  simp only [ConfigKey.all, List.map_cons, List.map_nil, List.cons.injEq, and_true] at atKeys
  obtain ⟨atFormatter, atBlacklist, atEnums, atVersion⟩ := atKeys
  have isFirst : IsFirstDefect entries .profileVersion (.notString .profileVersion) := by
    refine ⟨[.formatter, .blacklist, .enumSyntheticMembers], [], rfl,
      defectAt?_eq_some_iff.mp atVersion, ?_⟩
    intro earlier member other offends
    have found := defectAt?_eq_some_iff.mpr offends
    simp only [List.mem_cons, List.not_mem_nil, or_false] at member
    rcases member with rfl | rfl | rfl
    · rw [atFormatter] at found
      cases found
    · rw [atBlacklist] at found
      cases found
    · rw [atEnums] at found
      cases found
  obtain ⟨-, -, refuses, -, inDirectory⟩ := load_all_or_nothing readText_misconfigured parsed
  have refused := (refuses (.config "./.docstub.toml" (.notString .profileVersion))).mpr
    ⟨_, _, isFirst, rfl, isFirst.message⟩
  have isPath : pathIn "." = "./.docstub.toml" := by decide +kernel
  exact ⟨entries, readText_misconfigured, parsed, refused, (inDirectory "." isPath).2 _ refused⟩

end Config

end TypeStub
