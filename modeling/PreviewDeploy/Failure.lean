import PreviewDeploy.ControlPlane.Fault
import PreviewDeploy.Signature

/-!
# Failures of deployment attempts

Why one attempt to deploy failed.  A failure is fatal for its session (`Failure.isFatal`) if its
message says that the session's infrastructure is lost.
-/

namespace PreviewDeploy

open ControlPlane (Fault)

inductive Failure where
  | controlPlane (fault : Fault)
  | provisioningFailed (message : String)
  /-- The control plane's answer lacks what an instance needs. -/
  | provisioningIncomplete (missing : String)
  | writeFailed (failed : UInt64) (message : String)
  | writeRejected (message : String)
  | attemptTimeout (limit : Duration)
  | credential (message : String)
  | internal (message : String)
  deriving DecidableEq, Repr, Inhabited

namespace Failure

def kind : Failure → String
  | controlPlane fault => fault.kind
  | provisioningFailed _ => "provisioning_failed"
  | provisioningIncomplete _ => "provisioning_incomplete"
  | writeFailed .. => "write_failed"
  | writeRejected _ => "write_rejected"
  | attemptTimeout _ => "attempt_timeout"
  | credential _ => "credential"
  | internal _ => "internal"

def message : Failure → String
  | controlPlane fault => fault.message
  | provisioningFailed m => "failed to provision instance: " ++ m
  | provisioningIncomplete missing => "provisioning incomplete: response missing " ++ missing
  | writeFailed failed m => "failed to write " ++ toString failed.toNat ++ " file(s): " ++ m
  | writeRejected m => "file write rejected: " ++ m
  | attemptTimeout limit => "attempt timed out after " ++ limit.text
  | credential m => "credential error: " ++ m
  | internal m => m

/-- The part of the message that comes from outside. -/
def payload : Failure → String
  | controlPlane fault => fault.payload
  | provisioningFailed m | provisioningIncomplete m | writeFailed _ m | writeRejected m
  | credential m | internal m => m
  | attemptTimeout _ => ""

/-- Trying again in the same session cannot help. -/
def isFatal (f : Failure) : Bool := Signature.saysLost f.message

end Failure

end PreviewDeploy
