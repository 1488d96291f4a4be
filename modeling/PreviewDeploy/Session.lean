import PreviewDeploy.File.Basic
import PreviewDeploy.Identifier
import PreviewDeploy.Json.Record
import PreviewDeploy.Time.Timestamp

/-!
# Sessions and instances

A session scopes one client of the control plane and the instance known to it; it is replaced as
a whole.  An instance is what the control plane provisioned, with the addresses that it serves.
-/

namespace PreviewDeploy

open Json (Tree)

structure Session where
  id : SessionId
  createdAt : Timestamp
  deriving DecidableEq, Repr, Inhabited

structure Instance where
  id : InstanceId
  previewUrl : Option String
  tunnelUrl : Option String
  deriving DecidableEq, Repr, Inhabited

/-- What a deployment answers when it is ready: an instance under names of its own. -/
structure Outcome where
  instanceId : InstanceId
  previewUrl : Option String
  tunnelUrl : Option String
  deriving DecidableEq, Repr, Inhabited

namespace SessionId

def ofTree (t : Tree) : Option SessionId := t.string?.map SessionId.mk

def toTree (id : SessionId) : Tree := .ofString id.text

instance : Json.Form SessionId := ⟨ofTree, toTree⟩

end SessionId

namespace DeploymentId

def ofTree (t : Tree) : Option DeploymentId := t.string?.map DeploymentId.mk

def toTree (id : DeploymentId) : Tree := .ofString id.text

instance : Json.Form DeploymentId := ⟨ofTree, toTree⟩

end DeploymentId

namespace InstanceId

def ofTree (t : Tree) : Option InstanceId := t.string?.map InstanceId.mk

def toTree (id : InstanceId) : Tree := .ofString id.text

instance : Json.Form InstanceId := ⟨ofTree, toTree⟩

end InstanceId

namespace Session

def fields : List String := ["session_id", "created_at"]

def ofTree (t : Tree) : Option Session :=
  match Json.Record.slots fields t with
  | some [id, createdAt] => do
    let id ← id.required SessionId.ofTree
    let createdAt ← createdAt.required fun t => t.string?.bind Timestamp.parseLoose?
    pure ⟨id, createdAt⟩
  | _ => none

def toTree (s : Session) : Tree :=
  Json.Record.tree
    [("session_id", s.id.toTree), ("created_at", .ofString s.createdAt.zuluText)]

instance : Json.Form Session := ⟨ofTree, toTree⟩

end Session

namespace Instance

def fields : List String := ["instance_id", "preview_url", "tunnel_url"]

def ofTree (t : Tree) : Option Instance :=
  match Json.Record.slots fields t with
  | some [id, preview, tunnel] => do
    let id ← id.required InstanceId.ofTree
    let preview ← preview.optional (·.string?)
    let tunnel ← tunnel.optional (·.string?)
    pure ⟨id, preview, tunnel⟩
  | _ => none

def toTree (i : Instance) : Tree :=
  Json.Record.tree
    [("instance_id", i.id.toTree), ("preview_url", .ofString? i.previewUrl),
      ("tunnel_url", .ofString? i.tunnelUrl)]

instance : Json.Form Instance := ⟨ofTree, toTree⟩

def outcome (i : Instance) : Outcome := ⟨i.id, i.previewUrl, i.tunnelUrl⟩

end Instance

namespace Outcome

def fields : List String := ["instanceId", "previewUrl", "tunnelUrl"]

def ofTree (t : Tree) : Option Outcome :=
  match Json.Record.slots fields t with
  | some [id, preview, tunnel] => do
    let id ← id.required InstanceId.ofTree
    let preview ← preview.optional (·.string?)
    let tunnel ← tunnel.optional (·.string?)
    pure ⟨id, preview, tunnel⟩
  | _ => none

def toTree (o : Outcome) : Tree :=
  Json.Record.tree
    [("instanceId", o.instanceId.toTree), ("previewUrl", .ofString? o.previewUrl),
      ("tunnelUrl", .ofString? o.tunnelUrl)]

instance : Json.Form Outcome := ⟨ofTree, toTree⟩

end Outcome

/-- What one call asks to be deployed. -/
structure Request where
  /-- The files to write; none means every file of the project. -/
  files : List File
  /-- Provision a new instance even if the known one is usable. -/
  redeploy : Bool := false
  commitMessage : Option String := none
  clearLogs : Bool := false
  deriving DecidableEq, Repr, Inhabited

namespace Request

/-- Deploys every file of the project to whatever instance is usable. -/
def allFiles : Request := { files := [] }

end Request

end PreviewDeploy
