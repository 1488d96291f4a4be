import PreviewDeploy.Session
import PreviewDeploy.Vars

/-!
# Messages of the control plane

The requests and answers of the control plane and how they stand in JSON: the names of their
fields are written in camel case, and most fields of an answer may be left out.  Each message has
a reader (`ofTree`) beside its writer (`toTree`).
-/

namespace PreviewDeploy.ControlPlane

open Json (Tree)
open Json.Record (slots tree)

/-- What the control plane says of an instance. -/
structure InstanceStatus where
  success : Bool
  isHealthy : Bool := false
  previewUrl : Option String := none
  tunnelUrl : Option String := none
  error : Option String := none
  deriving DecidableEq, Repr, Inhabited

/-- How an instance is to be set up. -/
structure InstanceOptions where
  initCommand : Option String := none
  localDev : Bool := false
  deriving DecidableEq, Repr, Inhabited

/-- What an instance is to be created from. -/
structure CreateRequest where
  template : String
  projectName : String
  options : InstanceOptions := {}
  envVars : Vars := .empty
  deriving DecidableEq, Repr, Inhabited

structure CreateResponse where
  success : Bool
  runId : Option String := none
  previewUrl : Option String := none
  tunnelUrl : Option String := none
  error : Option String := none
  deriving DecidableEq, Repr, Inhabited

/-- What became of one file of a write. -/
structure WriteResult where
  file : String
  success : Bool
  error : Option String := none
  deriving DecidableEq, Repr, Inhabited

structure WriteResponse where
  success : Bool
  results : List WriteResult := []
  error : Option String := none
  deriving DecidableEq, Repr, Inhabited

/-- What became of one command. -/
structure CommandResult where
  command : String
  success : Bool
  output : Option String := none
  exitCode : Option Int32 := none
  error : Option String := none
  deriving DecidableEq, Repr, Inhabited

structure CommandsResponse where
  success : Bool
  results : List CommandResult := []
  error : Option String := none
  deriving DecidableEq, Repr, Inhabited

/-- What an instance has printed. -/
structure InstanceLogs where
  success : Bool
  stdout : String := ""
  stderr : String := ""
  error : Option String := none
  deriving DecidableEq, Repr, Inhabited

structure ClearResponse where
  success : Bool
  clearedCount : UInt32 := 0
  error : Option String := none
  deriving DecidableEq, Repr, Inhabited

namespace InstanceStatus

def fields : List String := ["success", "isHealthy", "previewUrl", "tunnelUrl", "error"]

def ofTree (t : Tree) : Option InstanceStatus :=
  match slots fields t with
  | some [success, isHealthy, previewUrl, tunnelUrl, error] => do
    let success ← success.required (·.bool?)
    let isHealthy ← isHealthy.withDefault false (·.bool?)
    let previewUrl ← previewUrl.loose (·.string?)
    let tunnelUrl ← tunnelUrl.loose (·.string?)
    let error ← error.loose (·.string?)
    pure { success, isHealthy, previewUrl, tunnelUrl, error }
  | _ => none

def toTree (m : InstanceStatus) : Tree :=
  tree [("success", .bool m.success), ("isHealthy", .bool m.isHealthy),
    ("previewUrl", .ofString? m.previewUrl), ("tunnelUrl", .ofString? m.tunnelUrl),
    ("error", .ofString? m.error)]

instance : Json.Form InstanceStatus := ⟨ofTree, toTree⟩

end InstanceStatus

namespace InstanceOptions

def fields : List String := ["initCommand", "localDev"]

def ofTree (t : Tree) : Option InstanceOptions :=
  match slots fields t with
  | some [initCommand, localDev] => do
    let initCommand ← initCommand.loose (·.string?)
    let localDev ← localDev.withDefault false (·.bool?)
    pure { initCommand, localDev }
  | _ => none

/-- Without its first member if there is no command. -/
def toTree (m : InstanceOptions) : Tree :=
  tree ((m.initCommand.map fun c => ("initCommand", Tree.ofString c)).toList ++
    [("localDev", .bool m.localDev)])

instance : Json.Form InstanceOptions := ⟨ofTree, toTree⟩

end InstanceOptions

namespace CreateRequest

def fields : List String := ["template", "projectName", "options", "envVars"]

def ofTree (t : Tree) : Option CreateRequest :=
  match slots fields t with
  | some [template, projectName, options, envVars] => do
    let template ← template.required (·.string?)
    let projectName ← projectName.required (·.string?)
    let options ← options.withDefault {} InstanceOptions.ofTree
    let envVars ← envVars.withDefault .empty Vars.ofTree
    pure { template, projectName, options, envVars }
  | _ => none

def toTree (m : CreateRequest) : Tree :=
  tree [("template", .ofString m.template), ("projectName", .ofString m.projectName),
    ("options", m.options.toTree), ("envVars", m.envVars.toTree)]

instance : Json.Form CreateRequest := ⟨ofTree, toTree⟩

end CreateRequest

namespace CreateResponse

def fields : List String := ["success", "runId", "previewUrl", "tunnelUrl", "error"]

def ofTree (t : Tree) : Option CreateResponse :=
  match slots fields t with
  | some [success, runId, previewUrl, tunnelUrl, error] => do
    let success ← success.required (·.bool?)
    let runId ← runId.loose (·.string?)
    let previewUrl ← previewUrl.loose (·.string?)
    let tunnelUrl ← tunnelUrl.loose (·.string?)
    let error ← error.loose (·.string?)
    pure { success, runId, previewUrl, tunnelUrl, error }
  | _ => none

def toTree (m : CreateResponse) : Tree :=
  tree [("success", .bool m.success), ("runId", .ofString? m.runId),
    ("previewUrl", .ofString? m.previewUrl), ("tunnelUrl", .ofString? m.tunnelUrl),
    ("error", .ofString? m.error)]

instance : Json.Form CreateResponse := ⟨ofTree, toTree⟩

end CreateResponse

namespace WriteResult

def fields : List String := ["file", "success", "error"]

def ofTree (t : Tree) : Option WriteResult :=
  match slots fields t with
  | some [file, success, error] => do
    let file ← file.required (·.string?)
    let success ← success.required (·.bool?)
    let error ← error.loose (·.string?)
    pure { file, success, error }
  | _ => none

def toTree (m : WriteResult) : Tree :=
  tree [("file", .ofString m.file), ("success", .bool m.success), ("error", .ofString? m.error)]

instance : Json.Form WriteResult := ⟨ofTree, toTree⟩

/-- The file with what went wrong. -/
def report (m : WriteResult) : String :=
  match m.error with
  | some e => m.file ++ ": " ++ e
  | none => m.file

end WriteResult

namespace WriteResponse

def fields : List String := ["success", "results", "error"]

def ofTree (t : Tree) : Option WriteResponse :=
  match slots fields t with
  | some [success, results, error] => do
    let success ← success.required (·.bool?)
    let results ← results.withDefault [] (·.list? WriteResult.ofTree)
    let error ← error.loose (·.string?)
    pure { success, results, error }
  | _ => none

def toTree (m : WriteResponse) : Tree :=
  tree [("success", .bool m.success), ("results", .ofList WriteResult.toTree m.results),
    ("error", .ofString? m.error)]

instance : Json.Form WriteResponse := ⟨ofTree, toTree⟩

/-- The results of the files that were not written. -/
def failed (m : WriteResponse) : List WriteResult := m.results.filter fun r => !r.success

/-- How many files were written. -/
def succeededCount (m : WriteResponse) : Nat := m.results.countP (·.success)

end WriteResponse

namespace CommandResult

def fields : List String := ["command", "success", "output", "exitCode", "error"]

def ofTree (t : Tree) : Option CommandResult :=
  match slots fields t with
  | some [command, success, output, exitCode, error] => do
    let command ← command.required (·.string?)
    let success ← success.required (·.bool?)
    let output ← output.loose (·.string?)
    let exitCode ← exitCode.loose (·.int32?)
    let error ← error.loose (·.string?)
    pure { command, success, output, exitCode, error }
  | _ => none

def toTree (m : CommandResult) : Tree :=
  tree [("command", .ofString m.command), ("success", .bool m.success),
    ("output", .ofString? m.output),
    ("exitCode", (m.exitCode.map fun c => Tree.ofInt c.toInt).getD .null),
    ("error", .ofString? m.error)]

instance : Json.Form CommandResult := ⟨ofTree, toTree⟩

end CommandResult

namespace CommandsResponse

def fields : List String := ["success", "results", "error"]

def ofTree (t : Tree) : Option CommandsResponse :=
  match slots fields t with
  | some [success, results, error] => do
    let success ← success.required (·.bool?)
    let results ← results.withDefault [] (·.list? CommandResult.ofTree)
    let error ← error.loose (·.string?)
    pure { success, results, error }
  | _ => none

def toTree (m : CommandsResponse) : Tree :=
  tree [("success", .bool m.success), ("results", .ofList CommandResult.toTree m.results),
    ("error", .ofString? m.error)]

instance : Json.Form CommandsResponse := ⟨ofTree, toTree⟩

/-- The results of the commands that failed. -/
def failed (m : CommandsResponse) : List CommandResult := m.results.filter fun r => !r.success

end CommandsResponse

namespace InstanceLogs

def fields : List String := ["success", "stdout", "stderr", "error"]

def ofTree (t : Tree) : Option InstanceLogs :=
  match slots fields t with
  | some [success, stdout, stderr, error] => do
    let success ← success.required (·.bool?)
    let stdout ← stdout.withDefault "" (·.string?)
    let stderr ← stderr.withDefault "" (·.string?)
    let error ← error.loose (·.string?)
    pure { success, stdout, stderr, error }
  | _ => none

def toTree (m : InstanceLogs) : Tree :=
  tree [("success", .bool m.success), ("stdout", .ofString m.stdout),
    ("stderr", .ofString m.stderr), ("error", .ofString? m.error)]

instance : Json.Form InstanceLogs := ⟨ofTree, toTree⟩

end InstanceLogs

namespace ClearResponse

def fields : List String := ["success", "clearedCount", "error"]

def ofTree (t : Tree) : Option ClearResponse :=
  match slots fields t with
  | some [success, clearedCount, error] => do
    let success ← success.required (·.bool?)
    let clearedCount ← clearedCount.withDefault 0 (·.uint32?)
    let error ← error.loose (·.string?)
    pure { success, clearedCount, error }
  | _ => none

def toTree (m : ClearResponse) : Tree :=
  tree [("success", .bool m.success), ("clearedCount", .ofUInt32 m.clearedCount),
    ("error", .ofString? m.error)]

instance : Json.Form ClearResponse := ⟨ofTree, toTree⟩

end ClearResponse

end PreviewDeploy.ControlPlane
