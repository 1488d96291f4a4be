import PreviewDeploy.Backoff
import PreviewDeploy.Monitor
import PreviewDeploy.Transaction

/-!
# Orchestrators

An orchestrator serves calls to deploy.  Calls that come while a caller waits for a deployment
join it; a call that finds no such deployment starts one, and takes the place of the one before
if that is still going on.  A deployment is a loop of attempts; each attempt is a transaction,
which goes on even if the attempt is given up.

Loops, transactions, callers and the monitor's watches go on beside each other.  They are kept in
lists to which entries are only added, so that each is known by its number.
-/

namespace PreviewDeploy

open ControlPlane (CommandsResponse)

structure Config where
  attemptTimeout : Duration := .ofMillis 60000
  /-- How long a caller waits. -/
  masterTimeout : Duration := .ofMillis 300000
  healthInterval : Duration := .ofMillis 30000
  /-- Every so many failures in a row the session is replaced; never for zero. -/
  rotationThreshold : UInt32 := 3
  backoff : Backoff := {}
  unhealthyThreshold : UInt32 := 1
  deriving Repr

instance : Inhabited Config := ⟨{}⟩

/-- How far a loop of attempts has come. -/
inductive LoopStage where
  /-- About to begin an attempt. -/
  | ready (attempt : UInt32)
  /-- Waiting for a transaction, until a time. -/
  | attempting (attempt : UInt32) (session : SessionId) (transaction deadline : Nat)
  /-- Waiting for the time of the next attempt. -/
  | backingOff (attempt : UInt32) (due : Nat)
  /-- Running setup commands after the attempt that succeeded. -/
  | settingUp (attempt : UInt32) (execution : Execution) (reply : Pending CommandsResponse)
  | finished (outcome : Option Outcome)

/-- The loop of attempts of a deployment. -/
structure Loop where
  deployment : DeploymentId
  request : Request
  startedAt : Nat
  cancelled : Bool := false
  stage : LoopStage := .ready 1

/-- How far a call to deploy has come. -/
inductive CallerStage where
  | entering
  /-- Waiting for a loop until a time; `starter` says that the call has started the loop. -/
  | waiting (loop : Nat) (since deadline : Nat) (starter : Bool)
  | finished (time : Nat) (outcome : Option Outcome)
  /-- The caller has gone away. -/
  | gone

/-- A call to deploy. -/
structure Caller where
  request : Request
  /-- The call was made to heal an instance. -/
  heal : Bool := false
  stage : CallerStage := .entering

/-- What is done for an unhealthy instance. -/
inductive Healer where
  /-- All files are deployed again. -/
  | deploys
  /-- It is only reported. -/
  | reports
  /-- Nobody is there. -/
  | gone
  deriving DecidableEq, Repr, Inhabited

structure Orchestrator where
  /-- Which of the world's orchestrators this is. -/
  number : Nat := 0
  config : Config := {}
  blueprint : Blueprint := {}
  transactions : List Transaction := []
  /-- The transactions that have not ended, in their order; the first one may go on. -/
  line : List Nat := []
  /-- The commands to run after the next success. -/
  setup : List String := []
  monitor : Monitor := {}
  loops : List Loop := []
  callers : List Caller := []
  /-- The loop that callers join. -/
  slot : Option Nat := none
  /-- The loop that is to go on. -/
  active : Option Nat := none
  debugging : Bool := false
  healer : Healer := .deploys
  /-- Somebody holds the orchestrator, beside its callers. -/
  held : Bool := true

instance : Inhabited Orchestrator := ⟨{}⟩

/-- An orchestrator at its site. -/
structure State extends Site where
  self : Orchestrator
  deriving Inhabited

namespace Orchestrator

def withConfig (number : Nat) (c : Config) (b : Blueprint) (setup : List String) :
    Orchestrator where
  number := number
  config := c
  blueprint := b
  setup := setup
  monitor := { period := c.healthInterval, threshold := c.unhealthyThreshold }

/-- The orchestrator begins nothing any more. -/
def isClosed (o : Orchestrator) : Bool := o.monitor.closed

def healers (o : Orchestrator) : Monitor.Healers := ⟨o.healer ≠ .gone, o.debugging⟩

def setTransaction (n : Nat) (stage : TransactionStage) (o : Orchestrator) : Orchestrator :=
  { o with transactions := o.transactions.modify n fun t => { t with stage } }

def setLoop (n : Nat) (stage : LoopStage) (o : Orchestrator) : Orchestrator :=
  { o with loops := o.loops.modify n fun l => { l with stage } }

def setCaller (n : Nat) (stage : CallerStage) (o : Orchestrator) : Orchestrator :=
  { o with callers := o.callers.modify n fun c => { c with stage } }

end Orchestrator

namespace Loop

def isFinished (l : Loop) : Bool :=
  match l.stage with
  | .finished _ => true
  | _ => false

/-- When a loop goes on by itself. -/
def due? (l : Loop) : Option Nat :=
  match l.stage with
  | .ready _ | .finished _ => none
  | .attempting _ _ _ deadline => some deadline
  | .backingOff _ due => some due
  | .settingUp _ _ reply => some reply.due

end Loop

namespace Caller

def isDone (c : Caller) : Bool :=
  match c.stage with
  | .finished .. | .gone => true
  | _ => false

/-- When a caller was answered, and with what. -/
def answer? (c : Caller) : Option (Nat × Option Outcome) :=
  match c.stage with
  | .finished time outcome => some (time, outcome)
  | _ => none

/-- When a caller stops waiting. -/
def due? (c : Caller) : Option Nat :=
  match c.stage with
  | .waiting _ _ deadline _ => some deadline
  | _ => none

end Caller

namespace State

def mapSite (f : Site → Site) (s : State) : State := { s with toSite := f s.toSite }

def mapWorld (f : World → World) (s : State) : State := s.mapSite (·.mapWorld f)

def mapSelf (f : Orchestrator → Orchestrator) (s : State) : State := { s with self := f s.self }

def emit (e : Event) (s : State) : State := s.mapSite (·.emit e)

def warn (text : String) (s : State) : State := s.mapSite (·.warn text)

def countWith (f : Metrics → Metrics) (s : State) : State := s.mapWorld (·.countWith f)

def count (c : Counter) (s : State) : State := s.mapWorld (·.count c)

def wake (t : Task) (s : State) : State := s.mapWorld (·.wake s.self.number t)

def wakeAll (ts : List Task) (s : State) : State := ts.foldl (fun s t => s.wake t) s

/-- The numbers of the entries of a list that have a property. -/
def numbersWhere (p : α → Bool) (xs : List α) : List Nat :=
  (xs.zipIdx.filter fun x => p x.1).map (·.2)

end State

end PreviewDeploy
