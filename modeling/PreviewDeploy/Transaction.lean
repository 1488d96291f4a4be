import PreviewDeploy.Failure
import PreviewDeploy.Identity
import PreviewDeploy.InstanceEnv
import PreviewDeploy.Selection

/-!
# Transactions

One transaction makes sure that there is an instance, selects the files that it lacks and writes
them.  The known instance is reused if the control plane says that it is healthy; otherwise a new
one is provisioned and recorded.  After a failed write the instance is forgotten, since it may
hold only part of the files.

A transaction goes on in steps, each from one answer of the control plane to the next call
(`Transaction.step`).  All its calls go through the client that it found at its start.
-/

namespace PreviewDeploy

open ControlPlane (Fault InstanceStatus CreateResponse WriteResponse InstanceLogs ClearResponse)

/-- What a new instance is made from. -/
structure Template where
  name : String := "vite-react"
  projectName : String := "preview"
  initCommand : Option String := none
  deriving DecidableEq, Repr, Inhabited

/-- What transactions go by. -/
structure Blueprint where
  env : InstanceEnv := .empty
  template : Template := {}
  policy : ReadOnly.Policy := .standard

instance : Inhabited Blueprint := ⟨{}⟩

/-- An instance to write to, and the client to write with. -/
structure Ensured where
  inst : Instance
  fresh : Bool
  client : Client
  deriving DecidableEq, Repr, Inhabited

/-- What a transaction that succeeded has done. -/
structure Execution where
  inst : Instance
  fresh : Bool
  written : Nat
  client : Client
  deriving DecidableEq, Repr, Inhabited

/-- How far a transaction has come. -/
inductive TransactionStage where
  /-- Waiting for the transactions before it. -/
  | queued
  /-- Asking for the status of the known instance. -/
  | checking (client : Client) (known : Instance) (reply : Pending InstanceStatus)
  | creating (client : Client) (reply : Pending CreateResponse)
  | writing (target : Ensured) (files : List File) (reply : Pending WriteResponse)
  | readingLogs (target : Ensured) (written : Nat) (reply : Pending InstanceLogs)
  | clearingErrors (target : Ensured) (written : Nat) (reply : Pending ClearResponse)
  | finished (time : Nat) (result : Except Failure Execution)

structure Transaction where
  request : Request
  stage : TransactionStage := .queued

namespace CreateFault

/-- What an answer without an instance lacks. -/
def missing (runId previewUrl : Option String) : String :=
  ", ".intercalate ((if runId.isNone then ["runId"] else []) ++
    (if previewUrl.isNone then ["previewUrl"] else []))

end CreateFault

namespace ControlPlane.CreateResponse

def nonEmpty (s : Option String) : Option String := s.filter fun t => !t.isEmpty

/-- The instance that an answer names. -/
def toInstance (r : CreateResponse) : Except Failure Instance :=
  if r.success then
    match nonEmpty r.runId, nonEmpty r.previewUrl with
    | some id, some url => .ok ⟨⟨id⟩, some url, r.tunnelUrl⟩
    | id, url => .error (.provisioningIncomplete (CreateFault.missing id url))
  else .error (.provisioningFailed (r.error.getD "unknown error"))

end ControlPlane.CreateResponse

namespace ControlPlane.WriteResponse

/-- Why a write has failed, if it has. -/
def failure? (r : WriteResponse) : Option Failure :=
  if r.failed.isEmpty then
    if r.success then none else some (.writeRejected (r.error.getD "write reported failure"))
  else
    some (.writeFailed (UInt64.ofNat r.failed.length)
      ("; ".intercalate (r.failed.map (·.report))))

end ControlPlane.WriteResponse

namespace Transaction

/-- A step: the site after it and the stage that it led to. -/
abbrev Outcome := Site × TransactionStage

variable (b : Blueprint) (n : Nat)

def finish (result : Except Failure Execution) (s : Site) : Outcome :=
  (s, .finished s.world.now result)

/-- Ends with a failure of the write, and forgets the instance. -/
def failWrite (target : Ensured) (failure : Failure) (s : Site) : Outcome :=
  finish (.error failure) (s.clearInstanceIf target.inst.id).2

/-- Clears the logs if the request says so, and ends. -/
def beginClearing (request : Request) (target : Ensured) (written : Nat) (s : Site) : Outcome :=
  if request.clearLogs then
    let (reply, w) := s.world.askLogs (.transaction n) target.client target.inst.id true
    ({ s with world := w }, .readingLogs target written reply)
  else finish (.ok ⟨target.inst, target.fresh, written, target.client⟩) s

/-- Warns of each file that is left out as read-only. -/
def warnOfDropped (dropped : List File) (s : Site) : Site :=
  dropped.foldl (fun s _ => s.warn "policy violation: skipping write to read-only path") s

/-- Selects the files and writes them, if there are any. -/
def beginWriting (request : Request) (target : Ensured) (s : Site) : Outcome :=
  let selection := Selection.select b.policy request.files target.fresh s.world.project
  let s := (warnOfDropped selection.dropped s).mapWorld
    (·.countWith (·.drop selection.dropped.length))
  if selection.files.isEmpty then beginClearing n request target 0 s
  else
    let (reply, w) :=
      s.world.askWrite (.transaction n) target.client target.inst.id selection.files
        request.commitMessage
    ({ s with world := w }, .writing target selection.files reply)

/-- Asks for a new instance. -/
def beginCreating (client : Client) (s : Site) : Outcome :=
  let (nonce, w) := s.world.mintNonce
  match b.env.forSession client.session w.unixSeconds nonce with
  | .error fault => finish (.error (.credential fault.message)) { s with world := w }
  | .ok vars =>
    let (reply, w) := w.askCreate (.transaction n) client
      { template := b.template.name
        projectName := b.template.projectName
        options := { initCommand := b.template.initCommand, localDev := true }
        envVars := vars }
    ({ s with world := w }, .creating client reply)

/-- Asks for the status of the known instance, if it may be reused, or for a new one. -/
def begin (request : Request) (s : Site) : Outcome :=
  let (client, s) := s.connect
  match (if request.redeploy then none else s.identity.inst) with
  | some known =>
    let (reply, w) := s.world.askStatus (.transaction n) client known.id
    ({ s with world := w }, .checking client known reply)
  | none => beginCreating b n client s

/-- Reuses the known instance if it is healthy, or asks for a new one. -/
def checked (request : Request) (client : Client) (known : Instance)
    (result : Except Fault InstanceStatus) (s : Site) : Outcome :=
  match result with
  | .ok status =>
    if status.success && status.isHealthy then beginWriting b n request ⟨known, false, client⟩ s
    else beginCreating b n client s
  | .error _ =>
    beginCreating b n client (s.warn "status check failed, provisioning a new one")

/-- Records the new instance, and writes to it. -/
def created (request : Request) (client : Client) (result : Except Fault CreateResponse)
    (s : Site) : Outcome :=
  match result with
  | .error fault => finish (.error (.controlPlane fault)) s
  | .ok response =>
    match response.toInstance with
    | .error failure => finish (.error failure) s
    | .ok inst =>
      let (current, s) := s.setInstanceIf client.session inst
      let s := if current then s else s.warn "session rotated during provisioning"
      beginWriting b n request ⟨inst, true, client⟩ s

/-- Goes on after the write, or fails with it. -/
def wrote (request : Request) (target : Ensured) (files : List File)
    (result : Except Fault WriteResponse) (s : Site) : Outcome :=
  match result with
  | .error fault => failWrite target (.controlPlane fault) s
  | .ok response =>
    let s := response.failed.foldl (fun s _ => s.warn "file write failed") s
    match response.failure? with
    | some failure => failWrite target failure s
    | none => beginClearing n request target files.length s

/-- Goes on to the runtime errors after the logs. -/
def readLogs (target : Ensured) (written : Nat) (result : Except Fault InstanceLogs) (s : Site) :
    Outcome :=
  let s := if result.isOk then s else s.warn "failed to clear logs"
  let (reply, w) := s.world.askClear (.transaction n) target.client target.inst.id
  ({ s with world := w }, .clearingErrors target written reply)

/-- Ends after the runtime errors were cleared. -/
def clearedErrors (target : Ensured) (written : Nat) (result : Except Fault ClearResponse)
    (s : Site) : Outcome :=
  let s := if result.isOk then s else s.warn "failed to clear runtime errors"
  finish (.ok ⟨target.inst, target.fresh, written, target.client⟩) s

/-- One step of the `n`-th transaction, if it can go on; `first` says that no transaction is
before it. -/
def step (first : Bool) (t : Transaction) (s : Site) : Option Outcome :=
  let now := s.world.now
  match t.stage with
  | .queued => if first then some (begin b n t.request s) else none
  | .checking client known reply =>
    if reply.due ≤ now then some (checked b n t.request client known reply.result s) else none
  | .creating client reply =>
    if reply.due ≤ now then some (created b n t.request client reply.result s) else none
  | .writing target files reply =>
    if reply.due ≤ now then some (wrote n t.request target files reply.result s) else none
  | .readingLogs target written reply =>
    if reply.due ≤ now then some (readLogs n target written reply.result s) else none
  | .clearingErrors target written reply =>
    if reply.due ≤ now then some (clearedErrors target written reply.result s) else none
  | .finished .. => none

/-- When the answer comes that a transaction waits for. -/
def due? (t : Transaction) : Option Nat :=
  match t.stage with
  | .queued | .finished .. => none
  | .checking _ _ r => some r.due
  | .creating _ r => some r.due
  | .writing _ _ r => some r.due
  | .readingLogs _ _ r => some r.due
  | .clearingErrors _ _ r => some r.due

/-- What a transaction that has ended came to. -/
def result? (t : Transaction) : Option (Except Failure Execution) :=
  match t.stage with
  | .finished _ result => some result
  | _ => none

end Transaction

end PreviewDeploy
