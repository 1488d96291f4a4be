import PreviewDeploy.History
import PreviewDeploy.Store.Basic
import PreviewDeploy.Time.Timestamp

/-!
# The stored history

Deployments are stored when they start, and marked when they end: a completion is always taken,
a timeout and a supersession only while the deployment is running or timed out.  Failed attempts
are stored by their number, a later one in place of an earlier one.
-/

namespace PreviewDeploy.Store

namespace DeploymentRow

def isNamed (id : DeploymentId) (r : DeploymentRow) : Bool := r.id = .text id.text

/-- A cell of a column as a value. -/
def read (column : String) (index : Nat) (as : Place → Cell → Except CellFault α) (c : Cell) :
    Except StoreError α :=
  (as ⟨index, column⟩ c).mapError fun e => .corrupt table column (.cell e)

/-- A text as a status. -/
def readStatus (text : String) : Except StoreError DeploymentStatus :=
  match DeploymentStatus.ofWord? text with
  | some status => .ok status
  | none => .error (.corrupt table "status" (.unknownStatus text))

/-- The record that a row holds. -/
def toRecord (r : DeploymentRow) : Except StoreError DeploymentRecord := do
  let word ← read "status" 3 Place.text r.status
  let id ← read "id" 0 Place.text r.id
  let project ← read "project" 1 Place.text r.project
  let session ← read "session_id" 2 Place.text r.sessionId
  let status ← readStatus word
  let fileCount ← read "file_count" 4 Place.uint32 r.fileCount
  let attempts ← read "attempts" 5 Place.uint32 r.attempts
  let instanceId ← read "instance_id" 6 Place.text? r.instanceId
  let previewUrl ← read "preview_url" 7 Place.text? r.previewUrl
  let error ← read "error" 8 Place.text? r.error
  let startedAt ← read "started_at" 9 Place.text r.startedAt
  let finishedAt ← read "finished_at" 10 Place.text? r.finishedAt
  pure { id := ⟨id⟩, project, session := ⟨session⟩, status, fileCount, attempts, instanceId,
         previewUrl, error, startedAt, finishedAt }

/-- The row of a deployment that has just started. -/
def ofStart (id : DeploymentId) (project : String) (session : SessionId) (fileCount : Nat)
    (now : Timestamp) : DeploymentRow where
  id := .text id.text
  project := .text project
  sessionId := .text session.text
  status := .text DeploymentStatus.running.word
  fileCount := .ofWord fileCount
  attempts := .integer 0
  instanceId := .null
  previewUrl := .null
  error := .null
  startedAt := .text now.text
  finishedAt := .null

/-- The row after a completion. -/
def completed (r : DeploymentRow) (attempts : UInt32) (inst : Instance) (now : Timestamp) :
    DeploymentRow :=
  { r with
    status := .text DeploymentStatus.completed.word
    attempts := .ofNat attempts.toNat
    instanceId := .text inst.id.text
    previewUrl := .ofText? inst.previewUrl
    error := .null
    finishedAt := .text now.text }

/-- Running or timed out. -/
def isOpen (r : DeploymentRow) : Bool :=
  r.status = .text DeploymentStatus.running.word || r.status = .text DeploymentStatus.timedOut.word

/-- The row after an end other than completion. -/
def ended (r : DeploymentRow) (status : DeploymentStatus) (error : String) (now : Timestamp) :
    DeploymentRow :=
  { r with status := .text status.word, error := .text error, finishedAt := .text now.text }

end DeploymentRow

namespace AttemptRow

def isOf (id : DeploymentId) (r : AttemptRow) : Bool := r.deploymentId = .text id.text

/-- The row of a failed attempt. -/
def ofRecord (id : DeploymentId) (a : AttemptRecord) (now : Timestamp) : AttemptRow where
  deploymentId := .text id.text
  attempt := .ofNat a.attempt.toNat
  sessionId := .text a.session.text
  error := .text a.error
  errorKind := .text a.errorKind
  retryInMs := .ofWord a.retryInMs.toNat
  rotated := .ofBool a.rotated
  createdAt := .text now.text

/-- A cell of a column as a value. -/
def read (column : String) (index : Nat) (as : Place → Cell → Except CellFault α) (c : Cell) :
    Except StoreError α :=
  (as ⟨index, column⟩ c).mapError .unreadable

/-- The record that a row holds; a delay below zero counts as none. -/
def toRecord (r : AttemptRow) : Except StoreError AttemptRecord := do
  let attempt ← read "attempt" 0 Place.uint32 r.attempt
  let session ← read "session_id" 1 Place.text r.sessionId
  let error ← read "error" 2 Place.text r.error
  let errorKind ← read "error_kind" 3 Place.text r.errorKind
  let retryInMs ← read "retry_in_ms" 4 Place.integer r.retryInMs
  let rotated ← read "session_rotated" 5 Place.integer r.rotated
  pure { attempt, session := ⟨session⟩, error, errorKind,
         retryInMs := UInt64.ofNat retryInMs.toNat, rotated := rotated ≠ 0 }

end AttemptRow

/-- The error text of a superseded deployment. -/
def supersededText : String := "superseded by a newer deployment"

variable (s : Store)

/-- The store with other deployments. -/
def withDeployments (rows : List DeploymentRow) : Store :=
  { s with tables := { s.tables with deployments := rows } }

/-- Stores that a deployment has started. -/
def start (id : DeploymentId) (project : String) (session : SessionId) (fileCount : Nat)
    (now : Timestamp) : Except StoreError Store :=
  let rows := s.tables.deployments
  if rows.any (·.isNamed id) then .error (.broken (.unique DeploymentRow.table ["id"]))
  else .ok (s.withDeployments (rows ++ [.ofStart id project session fileCount now]))

/-- Stores a failed attempt, and that the deployment had at least that many. -/
def recordAttempt (id : DeploymentId) (a : AttemptRecord) (now : Timestamp) :
    Except StoreError Store :=
  let new := AttemptRow.ofRecord id a now
  let deployments := s.tables.deployments
  if deployments.any (·.isNamed id) then
    .ok { s with tables := { s.tables with
      attempts := (s.tables.attempts.filter fun r =>
        !(r.isOf id && r.attempt = new.attempt)) ++ [new]
      deployments := deployments.map fun r =>
        if r.isNamed id then
          { r with attempts := Affinity.integer.apply (r.attempts.max new.attempt) }
        else r } }
  else .error (.broken .foreignKey)

/-- Stores that a deployment has completed. -/
def complete (id : DeploymentId) (attempts : UInt32) (inst : Instance) (now : Timestamp) :
    Except StoreError Store :=
  let rows := s.tables.deployments
  if rows.any (·.isNamed id) then
    .ok (s.withDeployments (rows.map fun r =>
      if r.isNamed id then r.completed attempts inst now else r))
  else .error (.notFound ("deployment " ++ id.text))

/-- Marks a deployment that is running or timed out. -/
def markEnded (id : DeploymentId) (status : DeploymentStatus) (error : String) (now : Timestamp) :
    Store :=
  s.withDeployments (s.tables.deployments.map fun r =>
    if r.isNamed id && r.isOpen then r.ended status error now else r)

def markTimedOut (id : DeploymentId) (error : String) (now : Timestamp) : Store :=
  s.markEnded id .timedOut error now

def markSuperseded (id : DeploymentId) (now : Timestamp) : Store :=
  s.markEnded id .superseded supersededText now

/-- The record of a deployment. -/
def deployment (id : DeploymentId) : Except StoreError DeploymentRecord :=
  match s.tables.deployments.find? (·.isNamed id) with
  | some r => r.toRecord
  | none => .error (.notFound ("deployment " ++ id.text))

/-- The records of a project's deployments, the last one started first. -/
def deployments (project : String) (limit : UInt32) : Except StoreError (List DeploymentRecord) :=
  (((s.tables.deployments.reverse.filter fun r => r.project = .text project).take
    limit.toNat).mapM DeploymentRow.toRecord)

/-- The records of a deployment's failed attempts, by their number. -/
def attempts (id : DeploymentId) : Except StoreError (List AttemptRecord) :=
  ((s.tables.attempts.filter (·.isOf id)).mergeSort fun a b =>
    !b.attempt.lt a.attempt).mapM AttemptRow.toRecord

end PreviewDeploy.Store
