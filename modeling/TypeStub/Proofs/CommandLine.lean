import TypeStub.CommandLine
import TypeStub.Proofs.FileTree
import TypeStub.Proofs.Outcome

/-!
Contract: runs of the command are whole or leave things as they are.

Owns:
- `Formatter.Formats`, when a command has made a text of another;
- `Request.FailsWith` and `Request.Makes`, what can become of a request before anything is
  written;
- what a run leaves on the standard output and in the files.
-/

namespace TypeStub

/-- Programs leave the files as they are. -/
def Launcher.LeavesFiles (launch : Launcher) : Prop :=
  ∀ tree program arguments input process after,
    launch tree program arguments input = .ok (process, after) → after = tree

namespace Formatter

variable {launch : Launcher} {command : List String} {code filename : String} {tree : FileTree}

/-- The command's program was started on the code, took all of it and ended with success, and
what it wrote is the text. -/
def Formats (launch : Launcher) (command : List String) (code filename : String)
    (tree : FileTree) (text : String) : Prop :=
  ∃ program arguments process after, named filename command = program :: arguments ∧
    launch tree program arguments code.toUTF8 = .ok (process, after) ∧
    process.status.isSuccess = true ∧ process.taken = .ok () ∧
    Utf8.decode process.stdout = .ok text

theorem collect_eq_ok_iff {program text : String} {process : FinishedProcess} :
    collect program process = .ok text ↔
      process.status.isSuccess = true ∧ process.taken = .ok () ∧
        Utf8.decode process.stdout = .ok text := by
  rw [collect]
  by_cases success : process.status.isSuccess = true
  · cases taken : process.taken with
    | error cause => simp [success]
    | ok =>
        cases decoded : Utf8.decode process.stdout <;> simp [success]
  · simp [success]

theorem format_eq_ok_iff {text : String} :
    (format launch command code filename tree).1 = .ok text ↔
      Formats launch command code filename tree text := by
  rw [format]
  constructor
  · intro formatted
    split at formatted
    · cases formatted
    rename_i program arguments isCommand
    split at formatted
    · cases formatted
    rename_i process after launched
    exact ⟨program, arguments, process, after, isCommand, launched,
      collect_eq_ok_iff.mp formatted⟩
  · rintro ⟨program, arguments, process, after, isCommand, launched, collected⟩
    simp only [isCommand, launched]
    exact collect_eq_ok_iff.mpr collected

theorem format_leaves (leaves : launch.LeavesFiles) (command : List String)
    (code filename : String) (tree : FileTree) :
    (format launch command code filename tree).2 = tree := by
  rw [format]
  split
  · rfl
  split
  · rfl
  · rename_i process after launched
    exact leaves _ _ _ _ _ _ launched

end Formatter

namespace Request

variable {request : Request} {launch : Launcher} {tree : FileTree} {config : Config}
  {text : String}

/-- The request has that configuration, and its module's stub is that text before it is
formatted. -/
def Renders (request : Request) (tree : FileTree) (config : Config) (text : String) : Prop :=
  ∃ module assembled, request.configuration tree.files = .ok config ∧
    Dump.Module.load tree.files request.dumps request.module = .ok module ∧
    Decl.Module.assemble module config.profile = .ok assembled ∧
    assembled.module.render = text

/-- The stages of a request that can fail before anything is written. -/
inductive FailsWith (request : Request) (launch : Launcher) (tree : FileTree) : Fault → Prop
  | configuring {fault : Fault} (refused : request.configuration tree.files = .error fault) :
      FailsWith request launch tree fault
  | loading {config : Config} {fault : Fault}
      (configured : request.configuration tree.files = .ok config)
      (refused : Dump.Module.load tree.files request.dumps request.module = .error fault) :
      FailsWith request launch tree fault
  | assembling {config : Config} {module : Dump.Module} {fault : Fault}
      (configured : request.configuration tree.files = .ok config)
      (loaded : Dump.Module.load tree.files request.dumps request.module = .ok module)
      (refused : Decl.Module.assemble module config.profile = .error fault) :
      FailsWith request launch tree fault
  | formatting {config : Config} {text : String} {failure : FormatterFailure}
      (renders : request.Renders tree config text) (isFormatted : request.formatted = true)
      (refused : (Formatter.format launch config.formatter text request.out tree).1 =
        .error failure) :
      FailsWith request launch tree (.formatting failure)

/-- The request's final text: the rendered stub, or what the formatter makes of it. -/
inductive Makes (request : Request) (launch : Launcher) (tree : FileTree) : String → Prop
  | rendered {config : Config} {text : String} (renders : request.Renders tree config text)
      (isPlain : request.formatted = false) :
      Makes request launch tree text
  | formatted {config : Config} {code text : String} (renders : request.Renders tree config code)
      (isFormatted : request.formatted = true)
      (formats : Formatter.Formats launch config.formatter code request.out tree text) :
      Makes request launch tree text

theorem failsWith_or_makes (request : Request) (launch : Launcher) (tree : FileTree) :
    (∃ fault, request.FailsWith launch tree fault) ∨ ∃ text, request.Makes launch tree text := by
  cases configured : request.configuration tree.files with
  | error fault => exact .inl ⟨fault, .configuring configured⟩
  | ok config =>
      cases loaded : Dump.Module.load tree.files request.dumps request.module with
      | error fault => exact .inl ⟨fault, .loading configured loaded⟩
      | ok module =>
          cases accepted : Decl.Module.assemble module config.profile with
          | error fault => exact .inl ⟨fault, .assembling configured loaded accepted⟩
          | ok assembled =>
              have renders : request.Renders tree config assembled.module.render :=
                ⟨module, assembled, configured, loaded, accepted, rfl⟩
              by_cases isFormatted : request.formatted = true
              · cases outcome : (Formatter.format launch config.formatter
                    assembled.module.render request.out tree).1 with
                | error failure =>
                    exact .inl ⟨_, .formatting renders isFormatted outcome⟩
                | ok text =>
                    exact .inr ⟨text, .formatted renders isFormatted
                      (Formatter.format_eq_ok_iff.mp outcome)⟩
              · exact .inr ⟨_, .rendered renders (by simpa using isFormatted)⟩

/-! ## The stub of a request -/

theorem Renders.configured (renders : request.Renders tree config text) :
    request.configuration tree.files = .ok config := by
  obtain ⟨module, assembled, configured, -⟩ := renders
  exact configured

theorem Renders.rendered (renders : request.Renders tree config text) :
    ∃ warnings, Stub.rendered tree.files config request.dumps request.module =
      .ok ⟨text, warnings⟩ := by
  obtain ⟨module, assembled, -, loaded, accepted, rfl⟩ := renders
  refine ⟨assembled.warnings, ?_⟩
  rw [Stub.rendered, loaded]
  simp only [bind, Except.bind, Stub.generate, accepted]

theorem stub_of_failsWith (leaves : launch.LeavesFiles) {fault : Fault}
    (fails : request.FailsWith launch tree fault) :
    request.stub tree.files launch tree = (.error fault, tree) := by
  cases fails with
  | configuring refused => simp only [stub, refused]
  | loading configured refused =>
      simp only [stub, configured, Stub.named, Stub.rendered, refused, bind, Except.bind]
  | assembling configured loaded refused =>
      simp only [stub, configured, Stub.named, Stub.rendered, loaded, bind, Except.bind,
        Stub.generate, refused]
  | @formatting config code failure renders isFormatted refused =>
      obtain ⟨warnings, rendered⟩ := renders.rendered
      have untouched := Formatter.format_leaves leaves config.formatter code request.out tree
      have outcome : Formatter.format launch config.formatter code request.out tree =
          (.error failure, tree) := Prod.ext refused untouched
      simp only [stub, renders.configured, formatAs, isFormatted, if_true, Stub.named, rendered,
        Stub.formatted, outcome]

theorem stub_of_makes (leaves : launch.LeavesFiles) (makes : request.Makes launch tree text) :
    ∃ warnings, request.stub tree.files launch tree = (.ok ⟨text, warnings⟩, tree) := by
  cases makes with
  | rendered renders isPlain =>
      obtain ⟨warnings, rendered⟩ := renders.rendered
      refine ⟨warnings, ?_⟩
      simp only [stub, renders.configured, formatAs, isPlain, Stub.named, rendered]
      simp
  | @formatted config code text renders isFormatted formats =>
      obtain ⟨warnings, rendered⟩ := renders.rendered
      refine ⟨warnings, ?_⟩
      have untouched := Formatter.format_leaves leaves config.formatter code request.out tree
      have outcome : Formatter.format launch config.formatter code request.out tree =
          (.ok text, tree) := Prod.ext (Formatter.format_eq_ok_iff.mpr formats) untouched
      simp only [stub, renders.configured, formatAs, isFormatted, if_true, Stub.named, rendered,
        Stub.formatted, outcome]

/-! ## The run -/

/-- The text goes out whole: to the standard output alone, or to the file alone. If the file
cannot be written, no file is changed. -/
def Delivers (request : Request) (before : FileTree) (text : String)
    (left : Outcome × FileTree) : Prop :=
  if request.out = "-" then
    left.1.stdout = text ∧ left.1.result = .ok () ∧ left.2 = before
  else
    left.1.stdout = "" ∧
      match left.1.result with
      | .ok () => FileTree.Saved before request.out text.toUTF8 left.2
      | .error _ => FileTree.MakesWay (Path.steps request.out) before left.2

/-- A request fails before anything is written, and then nothing is, or it makes a text, which
goes out whole. -/
theorem run_whole (leaves : launch.LeavesFiles) (request : Request) (tree : FileTree) :
    (∀ fault, request.FailsWith launch tree fault →
      request.run launch tree = (⟨"", 0, .error fault⟩, tree)) ∧
    (∀ text, request.Makes launch tree text →
      request.Delivers tree text (request.run launch tree)) ∧
    ((∃ fault, request.FailsWith launch tree fault) ∨
      ∃ text, request.Makes launch tree text) := by
  -- All stages come before the one write, so each of them leaves the tree to that as it was.
  refine ⟨?_, ?_, failsWith_or_makes request launch tree⟩
  · intro fault fails
    simp only [run, stub_of_failsWith leaves fails]
  · intro text makes
    obtain ⟨warnings, made⟩ := stub_of_makes leaves makes
    unfold Delivers
    by_cases isDash : request.out = "-"
    · simp [run, made, isToStdout, isDash]
    · have isFile : request.isToStdout = false := by simpa [isToStdout] using isDash
      simp only [run, made, isFile, if_neg isDash]
      cases finished : tree.save request.out text with
      | mk result after =>
          cases result with
          | error fault => exact ⟨rfl, FileTree.makesWay_of_save finished⟩
          | ok => exact ⟨rfl, FileTree.saved_of_save finished⟩

/-- Each program writes what it reads. -/
def copying : Launcher :=
  fun tree _ _ input => .ok (⟨.exited 0, input, .empty, .ok ()⟩, tree)

/-- The dump of a module that has no members. -/
def plainDump : String :=
  "\x7b\"name\": \"lamp\", \"members\": []\x7d"

/-- A directory with that dump. -/
def dumped : FileTree :=
  FileTree.empty.put ["lamp.json"] (.file plainDump.toUTF8)

/-- A formatted stub in a directory that is still to be made. -/
def toSave : Request :=
  ⟨"lamp", "stubs/lamp.pyi", true, ".", none⟩

/-- The stub of a module without members. -/
def plainStub : String :=
  "from __future__ import annotations\nimport typing\n"

private theorem configuration_dumped : toSave.configuration dumped.files = .ok .standard := by
  have allowed : FileTree.checkPath "./.docstub.toml" = .ok () :=
    FileTree.checkPath_eq_ok_iff.mpr (by decide)
  have missing : dumped.find "./.docstub.toml" = .error .notFound := by
    rw [FileTree.find, FileTree.locate, allowed]
    rfl
  have isPath : Config.pathIn "." = "./.docstub.toml" := by decide +kernel
  simp [configuration, toSave, Config.ofDirectory, isPath, FileTree.files, FileTree.holds, missing]

private theorem load_dumped :
    Dump.Module.load dumped.files "." "lamp" = .ok ⟨"lamp", none, [], []⟩ := by
  have allowed : FileTree.checkPath "./lamp.json" = .ok () :=
    FileTree.checkPath_eq_ok_iff.mpr (by decide)
  have found : dumped.read "./lamp.json" = .ok plainDump.toUTF8 := by
    rw [FileTree.read, FileTree.find, FileTree.locate, allowed]
    rfl
  have isPath : Dump.pathFor "." "lamp" = "./lamp.json" := by decide +kernel
  have isDump : Dump.Module.read? plainDump = some ⟨"lamp", none, [], []⟩ := by decide +kernel
  simp only [Dump.Module.load, isPath, Files.readText, FileTree.files, found, Utf8.decode_toUTF8,
    Dump.Module.ofText, isDump]

private theorem renders_plainStub : toSave.Renders dumped .standard plainStub := by
  have rendered : (Decl.Module.assemble ⟨"lamp", none, [], []⟩ .standard).map (·.module.render) =
      .ok plainStub := by decide +kernel
  obtain ⟨assembled, accepted, isPlain⟩ := Outcome.map_eq_ok_iff.mp rendered
  exact ⟨_, assembled, configuration_dumped, load_dumped, accepted, isPlain⟩

/-- The directory when the stub is saved. -/
def withStub : FileTree :=
  (dumped.put ["stubs"] .directory).put ["stubs", "lamp.pyi"] (.file plainStub.toUTF8)

private theorem save_plainStub : dumped.save toSave.out plainStub = (.ok (), withStub) := by
  have allowedDirectory : FileTree.checkPath "stubs" = .ok () :=
    FileTree.checkPath_eq_ok_iff.mpr (by decide)
  have allowed : FileTree.checkPath "stubs/lamp.pyi" = .ok () :=
    FileTree.checkPath_eq_ok_iff.mpr (by decide)
  have made : dumped.makeDirectory "stubs" = .ok (dumped.put ["stubs"] .directory) := by
    rw [FileTree.makeDirectory, FileTree.locate, allowedDirectory]
    rfl
  have written : (dumped.put ["stubs"] .directory).write "stubs/lamp.pyi" plainStub.toUTF8 =
      .ok withStub := by
    have steps : FileTree.stepsToWrite "stubs/lamp.pyi" = ["stubs", "lamp.pyi"] := by
      decide +kernel
    rw [FileTree.write, FileTree.locate, allowed, steps]
    rfl
  have isAbove : Path.ancestors ((Path.parent? "stubs/lamp.pyi").getD "") = ["stubs"] := by decide
  simp only [toSave, FileTree.save, FileTree.makeDirectories, isAbove, FileTree.ensureDirectories,
    made, FileTree.ensureDirectory, written]

theorem run_whole_toSave :
    copying.LeavesFiles ∧ toSave.Makes copying dumped plainStub ∧
      ∃ skipped, toSave.run copying dumped = (⟨"", skipped, .ok ()⟩, withStub) ∧
        dumped.Saved "stubs/lamp.pyi" plainStub.toUTF8 withStub := by
  have leaves : copying.LeavesFiles := by
    intro tree program arguments input process after launched
    cases launched
    rfl
  have makes : toSave.Makes copying dumped plainStub :=
    .formatted renders_plainStub rfl
      ⟨_, _, _, _, by rfl, rfl, rfl, rfl, Utf8.decode_toUTF8 plainStub⟩
  have delivers := (run_whole leaves toSave dumped).2.1 plainStub makes
  obtain ⟨warnings, made⟩ := stub_of_makes leaves makes
  have ends : toSave.run copying dumped = (⟨"", warnings.length, .ok ()⟩, withStub) := by
    have isFile : toSave.isToStdout = false := by decide
    simp only [run, made, isFile, save_plainStub]
    rfl
  rw [ends] at delivers
  exact ⟨leaves, makes, _, ends, delivers.2⟩

end Request

end TypeStub
