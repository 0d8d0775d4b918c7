import SiblingQuery.Text.Utf8
import SiblingQuery.Toml.Document

/-!
# Settings

What the command does when its arguments do not say otherwise.  Settings are kept in a TOML file
in the home directory, where each may be missing; keys that mean nothing are ignored.
-/

namespace SiblingQuery

/-- What a settings file can set. -/
structure Settings where
  /-- The name of the format to write. -/
  outputFormat : String := "json"
  /-- Whether JSON is spread over lines. -/
  pretty : Bool := true
  /-- Which log records are shown. -/
  logLevel : String := "warn"
deriving DecidableEq, Repr, Inhabited

/-- Why there are no settings. -/
inductive SettingsError where
  /-- The file cannot be read, or is no text. -/
  | unreadable (path : String)
  /-- The text is no TOML, or gives a setting a value of the wrong type. -/
  | malformed (path : String)
deriving DecidableEq, Repr, Inhabited

/-- What is said about a failure to load settings. -/
def SettingsError.message : SettingsError → String
  | .unreadable path => "Failed to read " ++ path
  | .malformed path => "Failed to parse " ++ path

/-- What stands where the settings file is looked for. -/
inductive SettingsFile where
  | missing
  /-- Something that cannot be read. -/
  | unreadable
  | content (octets : List UInt8)
deriving DecidableEq, Repr, Inhabited

/-- A settings file with some content, or none. -/
instance : Coe (Option (List UInt8)) SettingsFile where
  coe
    | none => .missing
    | some octets => .content octets

namespace Settings

/-- The settings where a file says nothing. -/
def standard : Settings := {}

/-- Where the settings file lies in the home directory. -/
def path : String := ".config/unist-find-all-after/config.toml"

/-- A setting as some view of the value under its key, or what stands when the key is missing. -/
def entry? {α : Type} (members : List (String × Toml)) (key : String) (view : Toml → Option α)
    (missing : α) : Option α :=
  match Members.get? key members with
  | none => some missing
  | some value => view value

/-- The settings that a table holds. -/
def ofTable? (members : List (String × Toml)) : Option Settings := do
  let outputFormat ← entry? members "output_format" Toml.asString? standard.outputFormat
  let pretty ← entry? members "pretty" Toml.asBool? standard.pretty
  let logLevel ← entry? members "log_level" Toml.asString? standard.logLevel
  return ⟨outputFormat, pretty, logLevel⟩

/-- The settings that a text holds. -/
def parse? (text : String) : Option Settings := (Toml.parse? text).bind ofTable?

/-- Loads settings from a file, if its content can be read. -/
def loadFrom (path : String) (content : Option (List UInt8)) : Except SettingsError Settings :=
  match content.bind Utf8.decode? with
  | none => .error (.unreadable path)
  | some text =>
    match parse? text with
    | none => .error (.malformed path)
    | some settings => .ok settings

/-- Loads the settings of a home directory, where the file may be missing. -/
def load (home : String) (file : SettingsFile) : Except SettingsError Settings :=
  match file with
  | .missing => .ok standard
  | .unreadable => loadFrom (home ++ "/" ++ path) none
  | .content octets => loadFrom (home ++ "/" ++ path) (some octets)

end Settings

end SiblingQuery
