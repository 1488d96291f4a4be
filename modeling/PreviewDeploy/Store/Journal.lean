import PreviewDeploy.Event
import PreviewDeploy.Store.History

/-!
# The journal of events

Some events change the stored history of a project.  `Journal.entry?` says how, and what the
change is called.
-/

namespace PreviewDeploy.Journal

/-- A change of the stored history, and what it is called. -/
structure Entry where
  what : String
  write : Store → Except Store.StoreError Store

/-- What an event of a project changes, at a time. -/
def entry? (project : String) (e : Event) (now : Timestamp) : Option Entry :=
  match e with
  | .started deployment session _ files =>
    some ⟨"deployment start", fun s => s.start deployment project session files.length now⟩
  | .attemptFailed deployment session attempt error errorKind retryInMs rotated =>
    some ⟨"attempt", fun s =>
      s.recordAttempt deployment { attempt, session, error, errorKind, retryInMs, rotated } now⟩
  | .completed deployment _ inst attempts _ _ =>
    some ⟨"deployment completion", fun s => s.complete deployment attempts inst now⟩
  | .timedOut deployment error _ =>
    some ⟨"timeout", fun s => .ok (s.markTimedOut deployment error now)⟩
  | .superseded deployment _ =>
    some ⟨"superseded deployment", fun s => .ok (s.markSuperseded deployment now)⟩
  | .sessionRotated .. | .selfHealTriggered _ => none

end PreviewDeploy.Journal
