import PreviewDeploy.Event
import PreviewDeploy.Telemetry
import PreviewDeploy.Text.Quoted

/-!
# Log lines

How events are logged: a level, a message, and fields with names.  A failed attempt and a caller
that gave up are warnings; a start and a success are information; other events are for debugging
only, and are logged by their kind.
-/

namespace PreviewDeploy

/-- What a field of a log line holds. -/
inductive LogValue where
  | text (s : String)
  | number (n : Nat)
  | flag (b : Bool)
  deriving DecidableEq, Repr, Inhabited

structure LogLine where
  level : LogLevel
  message : String
  /-- The fields beside the message. -/
  fields : List (String × LogValue) := []
  deriving DecidableEq, Repr, Inhabited

/-- A text that may be missing, written as a value. -/
def shownOption : Option String → String
  | some s => "Some(" ++ Text.quote s ++ ")"
  | none => "None"

/-- The line that logs an event. -/
def Event.line : Event → LogLine
  | .started deployment _ message files =>
    ⟨.info, message,
      [("deployment_id", .text deployment.text), ("files", .number files.length)]⟩
  | .attemptFailed deployment session attempt error _ retryInMs rotated =>
    ⟨.warn, "deployment attempt failed",
      [("deployment_id", .text deployment.text), ("session_id", .text session.text),
        ("attempt", .number attempt.toNat), ("delay_ms", .number retryInMs.toNat),
        ("session_rotated", .flag rotated), ("error", .text error)]⟩
  | .completed deployment _ inst attempts durationMs _ =>
    ⟨.info, "deployment completed",
      [("deployment_id", .text deployment.text), ("instance_id", .text inst.id.text),
        ("preview_url", .text (shownOption inst.previewUrl)),
        ("attempts", .number attempts.toNat), ("duration_ms", .number durationMs.toNat)]⟩
  | .timedOut deployment _ waitedMs =>
    ⟨.warn, "deployment not ready within master timeout",
      [("deployment_id", .text deployment.text), ("waited_ms", .number waitedMs.toNat)]⟩
  | e => ⟨.debug, "deployment notice", [("event_type", .text e.kind)]⟩

end PreviewDeploy
