import PreviewDeploy.ReadOnly
import PreviewDeploy.Text.Space
import PreviewDeploy.Vars

/-!
# Settings

How to reach the control plane, what to provision, what to log and where to keep the store.
Every field has a default; the default place of the store depends on the home directory.
`Settings.check` says what is wrong with settings that cannot be run with.
-/

namespace PreviewDeploy

open Json (Tree)
open Json.Record (slots tree)

/-- How to reach the control plane. -/
structure ControlPlaneSettings where
  baseUrl : String := "http://127.0.0.1:8787"
  apiKey : Option String := none
  requestTimeoutMs : UInt64 := 45000
  deriving DecidableEq, Repr, Inhabited

/-- What to provision, and which paths are not to be written. -/
structure TemplateSettings where
  name : String := "vite-react"
  projectName : String := "preview"
  initCommand : Option String := none
  readOnly : List String := ["api-worker/"]
  requiresProxy : Bool := false
  proxyUrl : Option String := none
  proxySecret : Option String := none
  proxyTokenTtlSecs : UInt64 := 86400
  envVars : Vars := .empty
  /-- What is run once, after the first deployment that succeeds. -/
  setupCommands : List String := []
  deriving DecidableEq, Repr, Inhabited

structure TelemetrySettings where
  level : String := "info"
  json : Bool := false
  deriving DecidableEq, Repr, Inhabited

structure StoreSettings where
  /-- Where the store is kept; without a place nothing is kept. -/
  path : Option String
  deriving DecidableEq, Repr, Inhabited

structure Settings where
  controlPlane : ControlPlaneSettings := {}
  template : TemplateSettings := {}
  telemetry : TelemetrySettings := {}
  store : StoreSettings
  deriving DecidableEq, Repr, Inhabited

/-- The home directory, or a place that always exists. -/
def homeOr (home : Option String) : String := home.getD "/tmp"

namespace StoreSettings

/-- The place of the store under the home directory. -/
def standard (home : Option String) : StoreSettings :=
  ⟨some (homeOr home ++ "/.shipyard/database/shipyard.db")⟩

end StoreSettings

namespace Settings

/-- The settings that hold where nothing is set. -/
def standard (home : Option String) : Settings := { store := .standard home }

/-- Where the settings are read from unless a place is given. -/
def standardPath (home : Option String) : String :=
  let dir := homeOr home
  if dir.isEmpty then ".shipyard/settings.json"
  else if dir.toList.getLast? = some '/' then dir ++ ".shipyard/settings.json"
  else dir ++ "/.shipyard/settings.json"

end Settings

/-! ### JSON -/

namespace ControlPlaneSettings

def fields : List String := ["baseUrl", "apiKey", "requestTimeoutMs"]

def ofTree (t : Tree) : Option ControlPlaneSettings :=
  match slots fields t with
  | some [baseUrl, apiKey, requestTimeoutMs] => do
    let std : ControlPlaneSettings := {}
    let baseUrl ← baseUrl.withDefault std.baseUrl (·.string?)
    let apiKey ← apiKey.loose (·.string?)
    let requestTimeoutMs ← requestTimeoutMs.withDefault std.requestTimeoutMs (·.uint64?)
    pure { baseUrl, apiKey, requestTimeoutMs }
  | _ => none

def toTree (s : ControlPlaneSettings) : Tree :=
  tree [("baseUrl", .ofString s.baseUrl), ("apiKey", .ofString? s.apiKey),
    ("requestTimeoutMs", .ofUInt64 s.requestTimeoutMs)]

end ControlPlaneSettings

namespace TemplateSettings

def fields : List String :=
  ["name", "projectName", "initCommand", "readOnlyPrefixes", "requiresAiProxy", "aiProxyUrl",
    "proxySecret", "proxyTokenTtlSecs", "envVars", "setupCommands"]

def ofTree (t : Tree) : Option TemplateSettings :=
  match slots fields t with
  | some [name, projectName, initCommand, readOnly, requiresProxy, proxyUrl, proxySecret,
      proxyTokenTtlSecs, envVars, setupCommands] => do
    let std : TemplateSettings := {}
    let name ← name.withDefault std.name (·.string?)
    let projectName ← projectName.withDefault std.projectName (·.string?)
    let initCommand ← initCommand.loose (·.string?)
    let readOnly ← readOnly.withDefault std.readOnly (·.list? (·.string?))
    let requiresProxy ← requiresProxy.withDefault std.requiresProxy (·.bool?)
    let proxyUrl ← proxyUrl.loose (·.string?)
    let proxySecret ← proxySecret.loose (·.string?)
    let proxyTokenTtlSecs ← proxyTokenTtlSecs.withDefault std.proxyTokenTtlSecs (·.uint64?)
    let envVars ← envVars.withDefault std.envVars Vars.ofTree
    let setupCommands ← setupCommands.withDefault std.setupCommands (·.list? (·.string?))
    pure { name, projectName, initCommand, readOnly, requiresProxy, proxyUrl, proxySecret,
           proxyTokenTtlSecs, envVars, setupCommands }
  | _ => none

def toTree (s : TemplateSettings) : Tree :=
  tree [("name", .ofString s.name), ("projectName", .ofString s.projectName),
    ("initCommand", .ofString? s.initCommand), ("readOnlyPrefixes", .ofList .ofString s.readOnly),
    ("requiresAiProxy", .bool s.requiresProxy), ("aiProxyUrl", .ofString? s.proxyUrl),
    ("proxySecret", .ofString? s.proxySecret),
    ("proxyTokenTtlSecs", .ofUInt64 s.proxyTokenTtlSecs), ("envVars", s.envVars.toTree),
    ("setupCommands", .ofList .ofString s.setupCommands)]

end TemplateSettings

namespace TelemetrySettings

def fields : List String := ["level", "json"]

def ofTree (t : Tree) : Option TelemetrySettings :=
  match slots fields t with
  | some [level, json] => do
    let std : TelemetrySettings := {}
    let level ← level.withDefault std.level (·.string?)
    let json ← json.withDefault std.json (·.bool?)
    pure { level, json }
  | _ => none

def toTree (s : TelemetrySettings) : Tree :=
  tree [("level", .ofString s.level), ("json", .bool s.json)]

end TelemetrySettings

namespace StoreSettings

def fields : List String := ["dbPath"]

def ofTree (home : Option String) (t : Tree) : Option StoreSettings :=
  match slots fields t with
  | some [path] => do
    let path ← path.withDefault (standard home).path (Tree.nullable (·.string?))
    pure { path }
  | _ => none

def toTree (s : StoreSettings) : Tree := tree [("dbPath", .ofString? s.path)]

end StoreSettings

namespace Settings

def fields : List String := ["sandbox", "template", "telemetry", "store"]

def ofTree (home : Option String) (t : Tree) : Option Settings :=
  match slots fields t with
  | some [controlPlane, template, telemetry, store] => do
    let std := standard home
    let controlPlane ← controlPlane.withDefault std.controlPlane ControlPlaneSettings.ofTree
    let template ← template.withDefault std.template TemplateSettings.ofTree
    let telemetry ← telemetry.withDefault std.telemetry TelemetrySettings.ofTree
    let store ← store.withDefault std.store (StoreSettings.ofTree home)
    pure { controlPlane, template, telemetry, store }
  | _ => none

def toTree (s : Settings) : Tree :=
  tree [("sandbox", s.controlPlane.toTree), ("template", s.template.toTree),
    ("telemetry", s.telemetry.toTree), ("store", s.store.toTree)]

end Settings

/-! ### Checking -/

/-- Why settings cannot be run with. -/
inductive SettingsFlaw where
  | blankBaseUrl
  | noProxyUrl
  | noProxySecret
  deriving DecidableEq, Repr, Inhabited

namespace SettingsFlaw

def message : SettingsFlaw → String
  | blankBaseUrl => "sandbox.baseUrl is empty"
  | noProxyUrl => "template.aiProxyUrl is required when requiresAiProxy is set"
  | noProxySecret => "template.proxySecret is required when requiresAiProxy is set"

end SettingsFlaw

namespace Settings

/-- The first flaw of the settings, if they have one. -/
def check (s : Settings) : Except SettingsFlaw Unit :=
  if (Text.trim s.controlPlane.baseUrl).isEmpty then .error .blankBaseUrl
  else if s.template.requiresProxy && s.template.proxyUrl.isNone then .error .noProxyUrl
  else if s.template.requiresProxy && s.template.proxySecret.isNone then .error .noProxySecret
  else .ok ()

end Settings

end PreviewDeploy
