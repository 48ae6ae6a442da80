import TypeStub.Config.Defect
import TypeStub.Fault

/-!
Contract: what is reported besides a result.

Owns: `Notice`, with its wording and the fields that go with it.
-/

namespace TypeStub

/-- Something that a user should know about a run that goes on. -/
inductive Notice where
  | unsupportedRoot (module member : String)
  | noSignature (callable : String)
  | misspelledKey (key : String) (suggestion : ConfigKey)
  | unknownKey (key : String)
  /-- A configuration that nobody asked for cannot be used. -/
  | configIgnored (fault : Fault)
deriving DecidableEq, Repr

/-- The file that configures a run in its directory. -/
def configFile : String :=
  ".docstub.toml"

namespace Notice

def message : Notice → String
  | .unsupportedRoot _ _ => "Unsupported root construct, skipping"
  | .noSignature _ => "No signature available, using (*args, **kwargs)"
  | .misspelledKey _ suggestion =>
      "Unknown key in " ++ configFile ++ ", did you mean '" ++ suggestion.name ++ "'?"
  | .unknownKey _ =>
      "Unknown key in " ++ configFile ++ " (known keys: " ++
        ", ".intercalate (ConfigKey.all.map ConfigKey.name) ++ ")"
  | .configIgnored _ => "Ignoring " ++ configFile

/-- What the notice is about, by names. -/
def fields : Notice → List (String × String)
  | .unsupportedRoot module member => [("module", module), ("member", member)]
  | .noSignature callable => [("callable", callable)]
  | .misspelledKey key suggestion => [("key", key), ("suggestion", suggestion.name)]
  | .unknownKey key => [("key", key)]
  | .configIgnored fault => [("error", fault.message)]

end Notice

end TypeStub
