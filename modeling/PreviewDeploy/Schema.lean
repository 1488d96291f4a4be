import PreviewDeploy.ControlPlane.Message
import PreviewDeploy.Event
import PreviewDeploy.File.Basic
import PreviewDeploy.History
import PreviewDeploy.Metrics
import PreviewDeploy.Settings.Basic

/-!
# The schema

The kinds of values that are exchanged and kept as JSON, by name.  `Schema.normalize` brings the
JSON of a value of a kind into the form in which it is written, and refuses what is no such value.
-/

namespace PreviewDeploy.Schema

open Json (Form Tree)

/-- A value of a type in the form in which it is written. -/
def formOf (α : Type) [Form α] (t : Tree) : Option Tree :=
  (Form.ofTree t : Option α).map Form.toTree

/-- What brings the JSON of each kind into its form; settings depend on the home directory. -/
def kinds (home : Option String) : List (String × (Tree → Option Tree)) :=
  open ControlPlane in
  [("InstanceStatus", formOf InstanceStatus), ("InstanceOptions", formOf InstanceOptions),
    ("CreateInstanceRequest", formOf CreateRequest),
    ("CreateInstanceResponse", formOf CreateResponse), ("FileWriteResult", formOf WriteResult),
    ("WriteFilesResponse", formOf WriteResponse), ("CommandResult", formOf CommandResult),
    ("ExecuteCommandsResponse", formOf CommandsResponse), ("InstanceLogs", formOf InstanceLogs),
    ("ClearErrorsResponse", formOf ClearResponse), ("FileRecord", formOf File),
    ("Session", formOf Session), ("InstanceRef", formOf Instance),
    ("DeploymentOutcome", formOf Outcome), ("DeploymentEvent", formOf Event),
    ("DeploymentRow", formOf DeploymentRecord), ("AttemptRow", formOf AttemptRecord),
    ("DeploymentStatus", formOf DeploymentStatus), ("MetricsSnapshot", formOf MetricsSnapshot),
    ("Settings", fun t => (Settings.ofTree home t).map Settings.toTree)]

/-- The form of a value of a kind; none if there is no such kind, or no such value of it. -/
def normalize (home : Option String) (kind : String) (t : Tree) : Option Tree :=
  ((kinds home).lookup kind).bind fun form => form t

end PreviewDeploy.Schema
