import NavDirections.FileTree.Basic
import NavDirections.Json.Reader
import NavDirections.Settings.Basic
import NavDirections.Text.Lines

/-!
# Settings files

Settings are read from a JSON file and put over the defaults; settings given directly go over both.
Saved settings are a JSON file again.
-/

namespace NavDirections

inductive JsonFileFault where
  | system (f : SystemFault)
  | notUtf8 (f : MalformedBytes)
  | document (f : Json.DocumentFault)

def FileTree.readJson (t : FileTree) (depth : Nat) (path : FilePath) : Except JsonFileFault Json := do
  let bytes ← (t.read path).mapError .system
  let document ← (Text.ofUtf8 bytes).mapError .notUtf8
  (Json.parse depth (Text.unifyLineEnds document)).mapError .document

inductive SettingsError where
  | notFound (path : FilePath)
  | notJson (path : FilePath)
  | invalidJson (path : FilePath) (e : JsonSyntaxError)
  | unreadable (path : FilePath) (f : SystemFault)
  | notAnObject (path : FilePath)
  | unwritable (path : FilePath) (f : SystemFault)

def SettingsError.message : SettingsError → Text
  | notFound path => "Configuration file not found: " ++ path.text
  | notJson path => "Configuration file must be JSON: " ++ path.text
  | invalidJson path e =>
    "Invalid JSON in configuration file " ++ path.text ++ ": " ++ e.message
  | unreadable path f =>
    "Failed to load configuration file " ++ path.text ++ ": " ++ f.message
  | notAnObject path => "Configuration file must contain a JSON object: " ++ path.text
  | unwritable path f => "Failed to save configuration to " ++ path.text ++ ": " ++ f.message

inductive SettingsFault where
  | reported (e : SettingsError)
  | entries (f : Settings.EntryFault)
  | system (f : SystemFault)
  | nullInPath
  | notUtf8 (f : MalformedBytes)
  | hugeInteger (digits : Nat)
  | tooDeep
  | surrogates (f : LoneSurrogates)

namespace Settings

def readEntries (depth : Nat) (t : FileTree) (path : FilePath) :
    Except SettingsFault (List (Text × Json)) :=
  match t.hasEntry path with
  | .error f => .error (.system f)
  | .ok false => .error (.reported (.notFound path))
  | .ok true =>
    if !path.isJson then .error (.reported (.notJson path))
    else match t.readJson depth path with
      | .ok (.object fields) => .ok fields
      | .ok _ => .error (.reported (.notAnObject path))
      | .error (.system f) => .error (.reported (.unreadable path f))
      | .error (.notUtf8 f) => .error (.notUtf8 f)
      | .error (.document (.syntaxError e)) => .error (.reported (.invalidJson path e))
      | .error (.document (.hugeInteger digits)) => .error (.hugeInteger digits)
      | .error (.document .tooDeep) => .error .tooDeep

/-- The settings of a file, if one is named, with overrides over them. -/
def load (depth : Nat) (t : FileTree) (file : Option FilePath) (overrides : List (Text × Json)) :
    Except SettingsFault Settings := do
  let fields ← match file with
    | some path => readEntries depth t path
    | none => .ok []
  (ofLayers [fields, overrides]).mapError .entries

/-- Writes the settings to a file, which is emptied first. -/
def save (s : Settings) (t : FileTree) (path : FilePath) : Except SettingsFault FileTree := do
  let value ← s.fileValue.mapError .entries
  let unwritable : AccessFault → SettingsFault
    | .system f => .reported (.unwritable path f)
    | .nullInPath => .nullInPath
  let emptied ← (t.write path []).mapError unwritable
  let bytes ← (Json.write value).toUtf8.mapError .surrogates
  (emptied.write path bytes).mapError unwritable

end Settings
end NavDirections
