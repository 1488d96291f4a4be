import PreviewDeploy.Json.Reader
import PreviewDeploy.Session

/-!
# Deployment events

What observers are told in the course of deployments.  In JSON an event is a record whose member
`type` is the word for its kind (`Event.tag`); in an array the word comes first and the other fields
follow.
-/

namespace PreviewDeploy

open Json (Tree Slot)

inductive Event where
  | started (deployment : DeploymentId) (session : SessionId) (message : String)
      (files : List String)
  | attemptFailed (deployment : DeploymentId) (session : SessionId) (attempt : UInt32)
      (error : String) (errorKind : String) (retryInMs : UInt64) (rotated : Bool)
  | completed (deployment : DeploymentId) (message : String) (inst : Instance)
      (attempts : UInt32) (durationMs : UInt64) (fresh : Bool)
  /-- A caller's wait has ended; the deployment itself may still complete. -/
  | timedOut (deployment : DeploymentId) (error : String) (waitedMs : UInt64)
  | sessionRotated (previous current : SessionId) (reason : String)
  | selfHealTriggered (inst : InstanceId)
  /-- A newer deployment has taken the place of this one. -/
  | superseded (deployment successor : DeploymentId)
  deriving DecidableEq, Repr, Inhabited

/-- What an event is about. -/
inductive Topic where
  | started
  | completed
  /-- A failed attempt, or a caller that gave up. -/
  | error
  /-- Anything else. -/
  | notice
  deriving DecidableEq, Repr, Inhabited

namespace Topic

def word : Topic → String
  | started => "started"
  | completed => "completed"
  | error => "error"
  | notice => "notice"

end Topic

namespace Event

def topic : Event → Topic
  | started .. => .started
  | completed .. => .completed
  | attemptFailed .. | timedOut .. => .error
  | sessionRotated .. | selfHealTriggered .. | superseded .. => .notice

/-- The word for the kind of an event, which observers are told. -/
def kind : Event → String
  | started .. => "deployment_started"
  | attemptFailed .. => "deployment_attempt_failed"
  | completed .. => "deployment_completed"
  | timedOut .. => "deployment_timed_out"
  | sessionRotated .. => "session_rotated"
  | selfHealTriggered .. => "self_heal_triggered"
  | superseded .. => "deployment_superseded"

/-- The error text of an event that reports a failure. -/
def error? : Event → Option String
  | attemptFailed _ _ _ error _ _ _ => some error
  | timedOut _ error _ => some error
  | _ => none

/-- The word that an event is written with. -/
def tag : Event → String
  | started .. => "deployment_started"
  | attemptFailed .. => "deployment_attempt_failed"
  | completed .. => "deployment_completed"
  | timedOut .. => "deployment_timed_out"
  | sessionRotated .. => "session_rotated"
  | selfHealTriggered .. => "self_heal_triggered"
  | superseded .. => "deployment_superseded"

/-- The names of the fields of an event that is written with a given word. -/
def fieldsOf (tag : String) : Option (List String) :=
  match tag with
  | "deployment_started" => some ["deployment_id", "session_id", "message", "files"]
  | "deployment_attempt_failed" =>
    some ["deployment_id", "session_id", "attempt", "error", "error_kind", "retry_in_ms",
      "session_rotated"]
  | "deployment_completed" =>
    some ["deployment_id", "message", "instance_id", "preview_url", "tunnel_url", "attempts",
      "duration_ms", "freshly_created"]
  | "deployment_timed_out" => some ["deployment_id", "error", "waited_ms"]
  | "session_rotated" => some ["previous", "current", "reason"]
  | "self_heal_triggered" => some ["instance_id"]
  | "deployment_superseded" => some ["deployment_id", "superseded_by"]
  | _ => none

/-- The event with the given fields that is written with a given word. -/
def ofSlots (tag : String) (slots : List Slot) : Option Event :=
  match tag, slots with
  | "deployment_started", [deployment, session, message, files] => do
    let deployment ← deployment.required DeploymentId.ofTree
    let session ← session.required SessionId.ofTree
    let message ← message.required (·.string?)
    let files ← files.required (·.list? (·.string?))
    pure (.started deployment session message files)
  | "deployment_attempt_failed",
      [deployment, session, attempt, error, errorKind, retryInMs, rotated] => do
    let deployment ← deployment.required DeploymentId.ofTree
    let session ← session.required SessionId.ofTree
    let attempt ← attempt.required (·.uint32?)
    let error ← error.required (·.string?)
    let errorKind ← errorKind.required (·.string?)
    let retryInMs ← retryInMs.required (·.uint64?)
    let rotated ← rotated.required (·.bool?)
    pure (.attemptFailed deployment session attempt error errorKind retryInMs rotated)
  | "deployment_completed",
      [deployment, message, id, preview, tunnel, attempts, durationMs, fresh] => do
    let deployment ← deployment.required DeploymentId.ofTree
    let message ← message.required (·.string?)
    let id ← id.required InstanceId.ofTree
    let preview ← preview.optional (·.string?)
    let tunnel ← tunnel.optional (·.string?)
    let attempts ← attempts.required (·.uint32?)
    let durationMs ← durationMs.required (·.uint64?)
    let fresh ← fresh.required (·.bool?)
    pure (.completed deployment message ⟨id, preview, tunnel⟩ attempts durationMs fresh)
  | "deployment_timed_out", [deployment, error, waitedMs] => do
    let deployment ← deployment.required DeploymentId.ofTree
    let error ← error.required (·.string?)
    let waitedMs ← waitedMs.required (·.uint64?)
    pure (.timedOut deployment error waitedMs)
  | "session_rotated", [previous, current, reason] => do
    let previous ← previous.required SessionId.ofTree
    let current ← current.required SessionId.ofTree
    let reason ← reason.required (·.string?)
    pure (.sessionRotated previous current reason)
  | "self_heal_triggered", [id] => do
    let id ← id.required InstanceId.ofTree
    pure (.selfHealTriggered id)
  | "deployment_superseded", [deployment, successor] => do
    let deployment ← deployment.required DeploymentId.ofTree
    let successor ← successor.required DeploymentId.ofTree
    pure (.superseded deployment successor)
  | _, _ => none

/-- The word that an event is written with, and the tree of the other fields. -/
def split : Tree → Option (String × Tree)
  | .object members =>
    match Json.Record.membersAt "type" members with
    | [.string (some tag)] => some (tag, .object (members.filter (·.1 ≠ some "type")))
    | _ => none
  | .array (.string (some tag) :: items) => some (tag, .array items)
  | _ => none

/-- Every member of an event has to have a value, of bounded depth, even if it is not used. -/
def ofTree (t : Tree) : Option Event := do
  let _ ← t.toBoundedJson
  let (tag, rest) ← split t
  let slots ← (fieldsOf tag).bind (Json.Record.slots · rest)
  ofSlots tag slots

/-- The members of an event beside its word. -/
def members : Event → List (String × Tree)
  | started deployment session message files =>
    [("deployment_id", deployment.toTree), ("session_id", session.toTree),
      ("message", .ofString message), ("files", .ofList .ofString files)]
  | attemptFailed deployment session attempt error errorKind retryInMs rotated =>
    [("deployment_id", deployment.toTree), ("session_id", session.toTree),
      ("attempt", .ofUInt32 attempt), ("error", .ofString error),
      ("error_kind", .ofString errorKind), ("retry_in_ms", .ofUInt64 retryInMs),
      ("session_rotated", .bool rotated)]
  | completed deployment message inst attempts durationMs fresh =>
    [("deployment_id", deployment.toTree), ("message", .ofString message),
      ("instance_id", inst.id.toTree), ("preview_url", .ofString? inst.previewUrl),
      ("tunnel_url", .ofString? inst.tunnelUrl), ("attempts", .ofUInt32 attempts),
      ("duration_ms", .ofUInt64 durationMs), ("freshly_created", .bool fresh)]
  | timedOut deployment error waitedMs =>
    [("deployment_id", deployment.toTree), ("error", .ofString error),
      ("waited_ms", .ofUInt64 waitedMs)]
  | sessionRotated previous current reason =>
    [("previous", previous.toTree), ("current", current.toTree), ("reason", .ofString reason)]
  | selfHealTriggered id => [("instance_id", id.toTree)]
  | superseded deployment successor =>
    [("deployment_id", deployment.toTree), ("superseded_by", successor.toTree)]

def toTree (e : Event) : Tree := Json.Record.tree (("type", .ofString e.tag) :: e.members)

instance : Json.Form Event := ⟨ofTree, toTree⟩

end Event

end PreviewDeploy
