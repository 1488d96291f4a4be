import PreviewDeploy.Settings.Basic
import PreviewDeploy.Telemetry

/-!
# Overriding settings by environment variables

Some fields of the settings can be set by an environment variable.  A variable that is empty, or
whose text is no value of its field, counts as not set.
-/

namespace PreviewDeploy

/-- Reads a truth value: `true`, `1`, `yes`, `on`, `false`, `0`, `no` or `off`, in any case. -/
def readBool? (text : String) : Option Bool :=
  let word := asciiLower text
  if ["true", "1", "yes", "on"].contains word then some true
  else if ["false", "0", "no", "off"].contains word then some false
  else none

/-- Reads a whole number of at most 64 bits within bounds. -/
def readBetween? (low high : UInt64) (text : String) : Option UInt64 :=
  match readUnsigned? UInt64.size text.toList with
  | some n => if low.toNat ≤ n ∧ n ≤ high.toNat then some (UInt64.ofNat n) else none
  | none => none

/-- The environment: what each variable is set to. -/
abbrev Environment := String → Option String

namespace Environment

/-- The value of a variable that is set to some text. -/
def text? (env : Environment) (name : String) : Option String :=
  (env name).filter fun text => !text.isEmpty

/-- The value of a variable that a reader accepts. -/
def value? (env : Environment) (name : String) (read : String → Option α) : Option α :=
  (env.text? name).bind read

end Environment

namespace Settings

/-- The variables that can set a field. -/
def knownVariables : List String :=
  ["SHIPYARD_SANDBOX_URL", "SHIPYARD_SANDBOX_API_KEY", "SHIPYARD_SANDBOX_TIMEOUT_MS",
    "SHIPYARD_TEMPLATE", "SHIPYARD_PROJECT_NAME", "SHIPYARD_REQUIRES_AI_PROXY",
    "SHIPYARD_AI_PROXY_URL", "SHIPYARD_PROXY_SECRET", "SHIPYARD_LOG_LEVEL", "SHIPYARD_LOG_JSON",
    "SHIPYARD_DB_PATH"]

/-- Lays the environment's variables over the settings. -/
def override (env : Environment) (s : Settings) : Settings :=
  let text (name : String) (old : String) : String := (env.text? name).getD old
  let some? (name : String) (old : Option String) : Option String :=
    match env.text? name with
    | some new => some new
    | none => old
  let bool (name : String) (old : Bool) : Bool := (env.value? name readBool?).getD old
  { controlPlane :=
      { baseUrl := text "SHIPYARD_SANDBOX_URL" s.controlPlane.baseUrl
        apiKey := some? "SHIPYARD_SANDBOX_API_KEY" s.controlPlane.apiKey
        requestTimeoutMs :=
          (env.value? "SHIPYARD_SANDBOX_TIMEOUT_MS" (readBetween? 1000 600000)).getD
            s.controlPlane.requestTimeoutMs }
    template :=
      { s.template with
        name := text "SHIPYARD_TEMPLATE" s.template.name
        projectName := text "SHIPYARD_PROJECT_NAME" s.template.projectName
        requiresProxy := bool "SHIPYARD_REQUIRES_AI_PROXY" s.template.requiresProxy
        proxyUrl := some? "SHIPYARD_AI_PROXY_URL" s.template.proxyUrl
        proxySecret := some? "SHIPYARD_PROXY_SECRET" s.template.proxySecret }
    telemetry :=
      { level := text "SHIPYARD_LOG_LEVEL" s.telemetry.level
        json := bool "SHIPYARD_LOG_JSON" s.telemetry.json }
    store := { path := some? "SHIPYARD_DB_PATH" s.store.path } }

end Settings

end PreviewDeploy
