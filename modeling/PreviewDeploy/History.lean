import PreviewDeploy.Session

/-!
# The history of deployments

What is remembered of a deployment, and of each of its attempts that failed.
-/

namespace PreviewDeploy

open Json (Tree)
open Json.Record (slots tree)

inductive DeploymentStatus where
  | running
  | completed
  /-- The caller gave up waiting; the deployment may still complete. -/
  | timedOut
  /-- A newer deployment took its place before it was done. -/
  | superseded
  deriving DecidableEq, Repr, Inhabited

namespace DeploymentStatus

def word : DeploymentStatus → String
  | running => "running"
  | completed => "completed"
  | timedOut => "timed_out"
  | superseded => "superseded"

def all : List DeploymentStatus := [running, completed, timedOut, superseded]

def ofWord? (word : String) : Option DeploymentStatus := all.find? fun s => s.word = word

/-- A word, or an object that has it as the only key, with null for it. -/
def ofTree : Tree → Option DeploymentStatus
  | .string (some word) => ofWord? word
  | .object [(some word, .null)] => ofWord? word
  | _ => none

def toTree (s : DeploymentStatus) : Tree := .ofString s.word

instance : Json.Form DeploymentStatus := ⟨ofTree, toTree⟩

end DeploymentStatus

/-- What is remembered of a deployment. -/
structure DeploymentRecord where
  id : DeploymentId
  project : String
  session : SessionId
  status : DeploymentStatus
  fileCount : UInt32
  attempts : UInt32
  instanceId : Option String
  previewUrl : Option String
  error : Option String
  startedAt : String
  finishedAt : Option String
  deriving DecidableEq, Repr, Inhabited

namespace DeploymentRecord

def fields : List String :=
  ["id", "project", "session_id", "status", "file_count", "attempts", "instance_id", "preview_url",
    "error", "started_at", "finished_at"]

def ofTree (t : Tree) : Option DeploymentRecord :=
  match slots fields t with
  | some [id, project, session, status, fileCount, attempts, instanceId, previewUrl, error,
      startedAt, finishedAt] => do
    let id ← id.required DeploymentId.ofTree
    let project ← project.required (·.string?)
    let session ← session.required SessionId.ofTree
    let status ← status.required DeploymentStatus.ofTree
    let fileCount ← fileCount.required (·.uint32?)
    let attempts ← attempts.required (·.uint32?)
    let instanceId ← instanceId.optional (·.string?)
    let previewUrl ← previewUrl.optional (·.string?)
    let error ← error.optional (·.string?)
    let startedAt ← startedAt.required (·.string?)
    let finishedAt ← finishedAt.optional (·.string?)
    pure { id, project, session, status, fileCount, attempts, instanceId, previewUrl, error,
           startedAt, finishedAt }
  | _ => none

def toTree (r : DeploymentRecord) : Tree :=
  tree [("id", r.id.toTree), ("project", .ofString r.project), ("session_id", r.session.toTree),
    ("status", r.status.toTree), ("file_count", .ofUInt32 r.fileCount),
    ("attempts", .ofUInt32 r.attempts), ("instance_id", .ofString? r.instanceId),
    ("preview_url", .ofString? r.previewUrl), ("error", .ofString? r.error),
    ("started_at", .ofString r.startedAt), ("finished_at", .ofString? r.finishedAt)]

instance : Json.Form DeploymentRecord := ⟨ofTree, toTree⟩

end DeploymentRecord

/-- What is remembered of a failed attempt. -/
structure AttemptRecord where
  attempt : UInt32
  session : SessionId
  error : String
  errorKind : String
  retryInMs : UInt64
  rotated : Bool
  deriving DecidableEq, Repr, Inhabited

namespace AttemptRecord

def fields : List String :=
  ["attempt", "session_id", "error", "error_kind", "retry_in_ms", "session_rotated"]

def ofTree (t : Tree) : Option AttemptRecord :=
  match slots fields t with
  | some [attempt, session, error, errorKind, retryInMs, rotated] => do
    let attempt ← attempt.required (·.uint32?)
    let session ← session.required SessionId.ofTree
    let error ← error.required (·.string?)
    let errorKind ← errorKind.required (·.string?)
    let retryInMs ← retryInMs.required (·.uint64?)
    let rotated ← rotated.required (·.bool?)
    pure { attempt, session, error, errorKind, retryInMs, rotated }
  | _ => none

def toTree (r : AttemptRecord) : Tree :=
  tree [("attempt", .ofUInt32 r.attempt), ("session_id", r.session.toTree),
    ("error", .ofString r.error), ("error_kind", .ofString r.errorKind),
    ("retry_in_ms", .ofUInt64 r.retryInMs), ("session_rotated", .bool r.rotated)]

instance : Json.Form AttemptRecord := ⟨ofTree, toTree⟩

end AttemptRecord

end PreviewDeploy
