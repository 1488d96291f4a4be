import PreviewDeploy.ControlPlane.Fault
import PreviewDeploy.Token
import PreviewDeploy.Vars

/-!
# The environment of new instances

A new instance is given variables that do not depend on its session and, if it may use the
proxy, the proxy's address and a token for its session.
-/

namespace PreviewDeploy

open ControlPlane (Fault)

/-- Access to the proxy. -/
structure Proxy where
  url : String
  secret : String
  ttlSecs : UInt64
  deriving DecidableEq, Repr, Inhabited

/-- Where the environment of a new instance comes from. -/
inductive InstanceEnv where
  | vars (fixed : Vars) (proxy : Option Proxy)
  /-- It cannot be had. -/
  | failing (fault : Fault)
  deriving DecidableEq, Repr

namespace InstanceEnv

instance : Inhabited InstanceEnv := ⟨.vars .empty none⟩

/-- No variables. -/
def empty : InstanceEnv := .vars .empty none

def urlVar : String := "AI_PROXY_URL"

def tokenVar : String := "AI_PROXY_TOKEN"

/-- The variables for an instance of a session, at a time in seconds since 1970. -/
def forSession (env : InstanceEnv) (session : SessionId) (now : Int64) (nonce : String) :
    Except Fault Vars :=
  match env with
  | .failing fault => .error fault
  | .vars fixed none => .ok fixed
  | .vars fixed (some proxy) =>
    .ok ((fixed.set urlVar proxy.url).set tokenVar
      (Token.mint proxy.secret session proxy.ttlSecs now nonce))

end InstanceEnv

end PreviewDeploy
