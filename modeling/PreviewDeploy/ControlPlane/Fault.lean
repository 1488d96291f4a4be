import PreviewDeploy.Duration

/-!
# Faults of the control plane

What can go wrong in one call to the control plane, or in preparing it.  `Fault.kind` classifies
a fault in one word, `Fault.message` is its text, and `Fault.ofStatus` reads the status of an
answer that is no success: 408 and 504 are timeouts of unknown length.
-/

namespace PreviewDeploy.ControlPlane

inductive Fault where
  /-- The control plane could not be reached. -/
  | network (message : String)
  /-- It answered with a status that is no success. -/
  | status (code : UInt16) (body : String)
  /-- Its answer could not be read. -/
  | decode (message : String)
  | timeout (limit : Duration)
  /-- It answered, and reported an error of its own. -/
  | remote (message : String)
  | credential (message : String)
  deriving DecidableEq, Repr, Inhabited

namespace Fault

def ofStatus (code : UInt16) (body : String) : Fault :=
  if code = 408 ∨ code = 504 then .timeout .zero else .status code body

def kind : Fault → String
  | network _ => "network"
  | status .. => "status"
  | decode _ => "decode"
  | timeout _ => "timeout"
  | remote _ => "remote"
  | credential _ => "credential"

def message : Fault → String
  | network m => "network error: " ++ m
  | status code body => "control plane returned " ++ toString code.toNat ++ ": " ++ body
  | decode m => "malformed response: " ++ m
  | timeout limit => "request timed out after " ++ limit.text
  | remote m => m
  | credential m => "credential error: " ++ m

/-- The part of the message that comes from outside. -/
def payload : Fault → String
  | network m | decode m | remote m | credential m => m
  | status _ body => body
  | timeout _ => ""

end Fault

end PreviewDeploy.ControlPlane
