import PreviewDeploy.Json.Merge
import PreviewDeploy.Json.Reader
import PreviewDeploy.Settings.Override
import PreviewDeploy.Text.Bytes

/-!
# Loading settings

Settings come in three layers: the defaults, over which the settings file is merged, over which
the environment's variables are laid (`Settings.load`).  A missing file leaves the defaults; a
file that cannot be read, that holds no JSON or no settings, or settings that cannot be run with,
are errors.
-/

namespace PreviewDeploy

/-- What is found at the place of the settings. -/
inductive SettingsSource where
  | missing
  | bytes (content : List UInt8)
  /-- Something without contents, as a directory. -/
  | unreadable
  deriving DecidableEq, Repr, Inhabited

inductive SettingsError where
  | io
  /-- No JSON, or JSON that holds no settings. -/
  | json
  | invalid (flaw : SettingsFlaw)
  deriving DecidableEq, Repr, Inhabited

namespace SettingsError

def kind : SettingsError → String
  | io => "io"
  | json => "json"
  | invalid _ => "invalid_value"

/-- The text of an error, without the reason of a file system or a reader. -/
def message : SettingsError → String
  | io => "failed to read settings file"
  | json => "failed to parse settings JSON"
  | invalid flaw => "invalid settings value: " ++ flaw.message

end SettingsError

namespace Settings

/-- The value of the default settings. -/
def standardJson (home : Option String) : Option Json := (standard home).toTree.toJson

/-- The settings of a file's text over the defaults. -/
def ofText (home : Option String) (text : String) : Option Settings := do
  let below ← standardJson home
  let above ← Json.parse text
  ofTree home (below.merge above).toTree

/-- The settings of a file over the defaults. -/
def ofSource (home : Option String) : SettingsSource → Except SettingsError Settings
  | .missing => .ok (standard home)
  | .unreadable => .error .io
  | .bytes content =>
    match ofUtf8? content with
    | none => .error .io
    | some text =>
      match ofText home text with
      | none => .error .json
      | some s => .ok s

/-- The settings of a file over the defaults and under the environment. -/
def layered (home : Option String) (env : Environment) (source : SettingsSource) :
    Except SettingsError Settings :=
  (ofSource home source).map (override env)

/-- The settings that a program runs with. -/
def load (home : Option String) (env : Environment) (source : SettingsSource) :
    Except SettingsError Settings :=
  match layered home env source with
  | .error e => .error e
  | .ok s =>
    match s.check with
    | .error flaw => .error (.invalid flaw)
    | .ok () => .ok s

end Settings

end PreviewDeploy
