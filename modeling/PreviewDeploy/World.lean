import PreviewDeploy.ControlPlane.Answer
import PreviewDeploy.File.Project
import PreviewDeploy.LogLine
import PreviewDeploy.Metrics
import PreviewDeploy.Store.Journal
import PreviewDeploy.Store.State

/-!
# The world of an orchestrator

What orchestrators share: a clock in milliseconds, the control plane, the files of the project,
the metrics, the store, and a log of what happened.  A call to the control plane (`World.ask`) is
logged, takes its reply at once and is answered when the reply's time has come.  A write to the
store can fail; the failure is logged and otherwise has no effect.
-/

namespace PreviewDeploy

open ControlPlane (Fault Reply Script)

/-- An activity that goes on beside others; each is the n-th of its kind. -/
inductive Task where
  | transaction (n : Nat)
  | loop (n : Nat)
  | caller (n : Nat)
  | watch (n : Nat)
  /-- A call from outside. -/
  | direct
  deriving DecidableEq, Repr, Inhabited

/-- A client of the control plane, bound to a session. -/
structure Client where
  /-- How many clients were built before. -/
  serial : Nat
  session : SessionId
  deriving DecidableEq, Repr, Inhabited

/-- What the log says. -/
inductive Happening where
  | newClient (session : SessionId)
  | call (task : Task) (client : Client) (request : ControlPlane.Request)
  | event (e : Event)
  | warning (text : String)
  /-- A deployment was asked for because an instance was unhealthy. -/
  | healed
  deriving DecidableEq, Repr

/-- A call that was made and is answered at a time. -/
structure Pending (α : Type) where
  due : Nat
  result : Except Fault α

structure World where
  /-- Milliseconds since the start. -/
  now : Nat := 0
  /-- The start, in milliseconds since 1970. -/
  epoch : Nat := 0
  /-- How many identifiers were minted. -/
  issued : Nat := 0
  /-- How many clients were built. -/
  clients : Nat := 0
  script : Script := {}
  project : Project := { template := {} }
  metrics : Metrics := {}
  store : Option Store := none
  /-- Which of the writes to come fail; those beyond the list succeed. -/
  outages : List Bool := []
  /-- What happened and when, the last first. -/
  log : List (Nat × Happening) := []
  /-- The tasks that may be able to go on, each with the number of its orchestrator. -/
  woken : List (Nat × Task) := []

namespace World

instance : Inhabited World := ⟨{}⟩

/-- Milliseconds since 1970. -/
def millis (w : World) : Nat := w.epoch + w.now

def time (w : World) : Timestamp :=
  .ofUnixSeconds (w.millis / 1000) (w.millis % 1000 * 1000000)

def unixSeconds (w : World) : Int64 := Int64.ofNat (w.millis / 1000)

def minter (w : World) : Minter := ⟨w.millis, w.issued⟩

def mintSession (w : World) : Session × World :=
  (⟨w.minter.sessionId, w.time⟩, { w with issued := w.issued + 1 })

def mintDeployment (w : World) : DeploymentId × World :=
  (w.minter.deploymentId, { w with issued := w.issued + 1 })

def mintNonce (w : World) : String × World :=
  (w.minter.nonce, { w with issued := w.issued + 1 })

/-- Adds to the log. -/
def note (h : Happening) (w : World) : World := { w with log := (w.now, h) :: w.log }

def warn (text : String) (w : World) : World := w.note (.warning text)

/-- Lets a task go on when its turn comes. -/
def wake (number : Nat) (t : Task) (w : World) : World :=
  if w.woken.contains (number, t) then w else { w with woken := w.woken ++ [(number, t)] }

def countWith (f : Metrics → Metrics) (w : World) : World := { w with metrics := f w.metrics }

def count (c : Counter) (w : World) : World := w.countWith (·.count c)

/-- The calls that were made, the first one first. -/
def calls (w : World) : List (Task × Client × ControlPlane.Request) :=
  w.log.reverse.filterMap fun
    | (_, .call task client request) => some (task, client, request)
    | _ => none

/-- The events that were emitted, the first one first. -/
def events (w : World) : List Event :=
  w.log.reverse.filterMap fun
    | (_, .event e) => some e
    | _ => none

/-! ### The store -/

/-- Writes to the store, if there is one and it takes writes; else complains. -/
def persist (complaint : String) (write : Store → Except Store.StoreError Store) (w : World) :
    World :=
  match w.store with
  | none => w
  | some s =>
    let result := if w.outages.headD false then .error .unavailable else write s
    let w := { w with outages := w.outages.tail }
    match result with
    | .ok s => { w with store := some s }
    | .error _ => w.warn complaint

/-- Adds generated files to the project. -/
def addGenerated (files : List File) (w : World) : World :=
  { w with project := w.project.record files }

/-- Enters an event into the stored history of a project. -/
def journal (project : Option String) (e : Event) (w : World) : World :=
  match project.bind fun p => Journal.entry? p e w.time with
  | some entry => w.persist ("failed to record " ++ entry.what) entry.write
  | none => w

/-- Logs the line of an event, if it is a warning. -/
def logLine (l : LogLine) (w : World) : World := if l.level = .warn then w.warn l.message else w

/-- Tells observers of an event: the history, the log and everybody else, in this order. -/
def emit (project : Option String) (e : Event) (w : World) : World :=
  ((w.journal project e).logLine e.line).note (.event e)

/-! ### Calls to the control plane -/

/-- Adds replies to the script of the control plane. -/
def prepare (more : Script) (w : World) : World := { w with script := w.script.append more }

/-- Logs a call and sets its reply to come. -/
def ask (task : Task) (client : Client) (request : ControlPlane.Request)
    (take : Script → Reply α × Script) (w : World) : Pending α × World :=
  let (reply, script) := take w.script
  (⟨w.now + reply.delay, reply.result⟩,
    { w with script := script }.note (.call task client request))

variable (task : Task) (client : Client)

def askStatus (inst : InstanceId) (w : World) :=
  w.ask task client (.status inst) (·.takeStatus inst)

def askCreate (request : ControlPlane.CreateRequest) (w : World) :=
  w.ask task client (.create request) (·.takeCreate)

def askWrite (inst : InstanceId) (files : List File) (message : Option String) (w : World) :=
  w.ask task client (.write inst files message) (·.takeWrite files)

def askCommands (inst : InstanceId) (commands : List String) (w : World) :=
  w.ask task client (.commands inst commands) (·.takeCommands commands)

def askLogs (inst : InstanceId) (clear : Bool) (w : World) :=
  w.ask task client (.logs inst clear) (·.takeLogs)

def askClear (inst : InstanceId) (w : World) :=
  w.ask task client (.clearErrors inst) (·.takeClear)

/-- Asks for anything. -/
def askAny (request : ControlPlane.Request) (w : World) :=
  w.ask task client request (·.take request)

end World

end PreviewDeploy
