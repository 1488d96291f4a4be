import PreviewDeploy.ControlPlane.Fault
import PreviewDeploy.ControlPlane.Message

/-!
# A scripted control plane

Each kind of call takes the next of the replies scripted for it.  When none is left, every call is
answered with the same fault if one is given, and otherwise as a healthy control plane would: the
`n`-th instance is `run-n`, all files are written and all commands succeed.
-/

namespace PreviewDeploy.ControlPlane

/-- An answer that comes after a time in milliseconds. -/
structure Reply (α : Type) where
  delay : Nat := 0
  result : Except Fault α

/-- What a client asks of the control plane. -/
inductive Request where
  | status (inst : InstanceId)
  | create (request : CreateRequest)
  | write (inst : InstanceId) (files : List File) (message : Option String)
  | commands (inst : InstanceId) (commands : List String)
  | logs (inst : InstanceId) (clear : Bool)
  | clearErrors (inst : InstanceId)
  deriving DecidableEq, Repr

structure Script where
  status : List (Reply InstanceStatus) := []
  create : List (Reply CreateResponse) := []
  write : List (Reply WriteResponse) := []
  commands : List (Reply CommandsResponse) := []
  logs : List (Reply InstanceLogs) := []
  clear : List (Reply ClearResponse) := []
  /-- How many instances were asked for. -/
  creates : Nat := 0
  /-- What calls without a reply are answered with. -/
  outage : Option Fault := none

namespace Script

instance : Inhabited Script := ⟨{}⟩

/-- The first of the replies, or another one. -/
def takeReply (replies : List (Reply α)) (outage : Option Fault) (healthy : α) :
    Reply α × List (Reply α) :=
  match replies, outage with
  | reply :: rest, _ => (reply, rest)
  | [], some fault => ({ result := .error fault }, [])
  | [], none => ({ result := .ok healthy }, [])

/-- Where a healthy instance can be seen. -/
def previewOf (id : String) : String := "https://" ++ id ++ ".preview.local"

def takeStatus (s : Script) (inst : InstanceId) : Reply InstanceStatus × Script :=
  let (reply, rest) := takeReply s.status s.outage
    { success := true, isHealthy := true, previewUrl := some (previewOf inst.text) }
  (reply, { s with status := rest })

def takeCreate (s : Script) : Reply CreateResponse × Script :=
  let id := "run-" ++ toString (s.creates + 1)
  let (reply, rest) := takeReply s.create s.outage
    { success := true, runId := some id, previewUrl := some (previewOf id) }
  (reply, { s with create := rest, creates := s.creates + 1 })

def takeWrite (s : Script) (files : List File) : Reply WriteResponse × Script :=
  let (reply, rest) := takeReply s.write s.outage
    { success := true, results := files.map fun f => { file := f.path, success := true } }
  (reply, { s with write := rest })

def takeCommands (s : Script) (commands : List String) : Reply CommandsResponse × Script :=
  let (reply, rest) := takeReply s.commands s.outage
    { success := true
      results := commands.map fun c => { command := c, success := true, exitCode := some 0 } }
  (reply, { s with commands := rest })

def takeLogs (s : Script) : Reply InstanceLogs × Script :=
  let (reply, rest) := takeReply s.logs s.outage { success := true }
  (reply, { s with logs := rest })

def takeClear (s : Script) : Reply ClearResponse × Script :=
  let (reply, rest) := takeReply s.clear s.outage { success := true }
  (reply, { s with clear := rest })

/-- Adds replies after those that are there. -/
def append (s t : Script) : Script :=
  { s with
    status := s.status ++ t.status
    create := s.create ++ t.create
    write := s.write ++ t.write
    commands := s.commands ++ t.commands
    logs := s.logs ++ t.logs
    clear := s.clear ++ t.clear }

end Script

end PreviewDeploy.ControlPlane
