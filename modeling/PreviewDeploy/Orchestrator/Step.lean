import PreviewDeploy.Orchestrator.Basic

/-!
# Steps of an orchestrator

Each task goes on in steps (`State.step`); between two steps of one task any other task may go on.
What lets another task go on wakes it, in the order in which that happens: the end of a
transaction wakes the next one in line and then the loop that waits for it, the end of a loop wakes
its callers, and to cancel a loop or a watch wakes it if it is waiting for its time.

A step is what a task does between two places at which it waits, taken as a single action.  Some
steps give up a lock and take another one on their way: after a failed attempt the identity is
changed before the failure is published (`State.failAttempt`), and the setup commands are taken from
their queue before they are sent (`State.beginSetup`).  On a runtime with several threads another
task can come in between there, which the steps leave out.
-/

namespace PreviewDeploy

open ControlPlane (Fault CommandsResponse)

namespace State

/-! ### Endings -/

/-- The loop waits for its time, and for nothing else. -/
def isBackingOff (l : Loop) : Bool :=
  match l.stage with
  | .backingOff .. => true
  | _ => false

/-- The watch waits for its time, and for nothing else. -/
def isSleeping (w : Watch) : Bool :=
  match w.stage with
  | .sleeping .. => true
  | _ => false

/-- Cancels all loops and watches, those to come included. -/
def close (s : State) : State :=
  let o := s.self
  let loops := numbersWhere isBackingOff o.loops
  let watches := numbersWhere isSleeping o.monitor.watches
  (s.mapSelf fun o =>
    { o with
      monitor := o.monitor.close
      loops := o.loops.map fun l => { l with cancelled := true } }).wakeAll
    (loops.map .loop ++ watches.map .watch)

/-- Nobody holds the orchestrator. -/
def isLoose (o : Orchestrator) : Bool := !o.held && o.callers.all (·.isDone)

/-- Closes the orchestrator if nobody holds it any more. -/
def letGo (s : State) : State :=
  if isLoose s.self && s.self.healer ≠ .gone then
    s.close.mapSelf fun o => { o with healer := .gone }
  else s

/-! ### Loops -/

def isWaitingFor (loop : Nat) (c : Caller) : Bool :=
  match c.stage with
  | .waiting k _ _ _ => k = loop
  | _ => false

/-- Ends a loop, and wakes its callers. -/
def endLoop (n : Nat) (outcome : Option Outcome) (s : State) : State :=
  let s := s.mapSelf fun o =>
    { o.setLoop n (.finished outcome) with
      active := if o.active = some n then none else o.active }
  s.wakeAll ((numbersWhere (isWaitingFor n) s.self.callers).map .caller)

/-- Puts a transaction at the end of the line. -/
def enqueue (request : Request) (s : State) : State :=
  let k := s.self.transactions.length
  (s.mapSelf fun o =>
    { o with
      transactions := o.transactions ++ [{ request }]
      line := o.line ++ [k] }).wake (.transaction k)

/-- Begins an attempt with a transaction, unless the loop is cancelled. -/
def beginAttempt (n : Nat) (l : Loop) (attempt : UInt32) (s : State) : State :=
  if l.cancelled then s.endLoop n none
  else
    let deadline := s.world.now + s.self.config.attemptTimeout.ceilMillis
    let stage := .attempting attempt s.identity.session.id s.self.transactions.length deadline
    let s := s.count .attempt
    (s.mapSelf (·.setLoop n stage)).enqueue l.request

/-- The failure of an attempt replaces the session. -/
def rotates (c : Config) (attempt : UInt32) (f : Failure) : Bool :=
  f.isFatal || (c.rotationThreshold ≠ 0 && attempt % c.rotationThreshold = 0)

/-- Why a session is replaced. -/
def rotationReason (attempt : UInt32) (f : Failure) : String :=
  if f.isFatal then "fatal error signature"
  else toString attempt.toNat ++ " consecutive failures"

/-- Replaces the session, and tells so. -/
def rotateFor (reason : String) (s : State) : State :=
  let previous := s.identity.session.id
  let s := s.mapSite Site.rotate
  let s := s.count .rotated
  s.emit (.sessionRotated previous s.identity.session.id reason)

/-- After a failed attempt: replaces the session or forgets the instance, and backs off. -/
def failAttempt (n : Nat) (l : Loop) (attempt : UInt32) (session : SessionId) (f : Failure)
    (s : State) : State :=
  let rotated := rotates s.self.config attempt f
  let s := s.count .attemptFailed
  let s := if rotated then s.rotateFor (rotationReason attempt f)
    else s.mapSite Site.clearInstance
  let delay := s.self.config.backoff.delay attempt
  let s := s.emit (.attemptFailed l.deployment session attempt f.message f.kind
    (UInt64.ofNat delay.millis) rotated)
  s.mapSelf (·.setLoop n (.backingOff attempt (s.world.now + delay.ceilMillis)))

/-- Arms the monitor for an instance. -/
def arm (inst : InstanceId) (s : State) : State :=
  let m := s.self.monitor
  let before := (m.armed.filter fun n => (m.watches[n]?.map isSleeping).getD false).toList
  (s.mapSelf fun o => { o with monitor := o.monitor.arm inst s.world.now }).wakeAll
    ((before ++ [m.watches.length]).map .watch)

/-- Completes a deployment. -/
def complete (n : Nat) (l : Loop) (attempt : UInt32) (e : Execution) (s : State) : State :=
  let duration := UInt64.ofNat (s.world.now - l.startedAt)
  let s := s.countWith (·.complete duration)
  let s := s.emit (.completed l.deployment "Deployment ready" e.inst attempt duration e.fresh)
  s.endLoop n (some e.inst.outcome)

/-- Takes the setup commands and runs them, if there are any.  No other task comes in between, so
lists are sent in the order in which they are taken. -/
def beginSetup (task : Task) (client : Client) (inst : InstanceId) (s : State) :
    Option (Pending CommandsResponse) × State :=
  let commands := s.self.setup
  let s := s.mapSelf fun o => { o with setup := [] }
  if commands.isEmpty then (none, s)
  else
    let (reply, w) := s.world.askCommands task client inst commands
    (some reply, { s with world := w })

/-- After a successful attempt: arms the monitor if need be, and runs the setup commands. -/
def succeed (n : Nat) (l : Loop) (attempt : UInt32) (e : Execution) (s : State) : State :=
  let s := if e.fresh || !s.self.monitor.isArmed then s.arm e.inst.id else s
  match s.beginSetup (.loop n) e.client e.inst.id with
  | (none, s) => s.complete n l attempt e
  | (some reply, s) => s.mapSelf (·.setLoop n (.settingUp attempt e reply))

/-- Complains of setup commands that failed. -/
def reportSetup (result : Except Fault CommandsResponse) (w : World) : World :=
  match result with
  | .error _ => w.warn "failed to run setup commands"
  | .ok response =>
    let w := response.failed.foldl (fun w _ => w.warn "setup command failed") w
    if response.success then w else w.warn "setup commands reported failure"

/-- What the attempt of a loop has come to, if it has. -/
def attemptResult? (k deadline : Nat) (s : State) : Option (Except Failure Execution) :=
  match s.self.transactions[k]?.bind (·.result?) with
  | some result => some result
  | none =>
    if deadline ≤ s.world.now then some (.error (.attemptTimeout s.self.config.attemptTimeout))
    else none

/-- One step of the n-th loop, if it can go on. -/
def stepLoop (n : Nat) (s : State) : Option State :=
  match s.self.loops[n]? with
  | none => none
  | some l =>
    match l.stage with
    | .ready attempt => some (s.beginAttempt n l attempt)
    | .attempting attempt session k deadline =>
      match s.attemptResult? k deadline with
      | some (.ok e) => some (s.succeed n l attempt e)
      | some (.error f) => some (s.failAttempt n l attempt session f)
      | none => none
    | .backingOff attempt due =>
      if l.cancelled then some (s.endLoop n none)
      else if due ≤ s.world.now then some (s.mapSelf (·.setLoop n (.ready (attempt + 1))))
      else none
    | .settingUp attempt e reply =>
      if reply.due ≤ s.world.now then
        some ((s.mapWorld (reportSetup reply.result)).complete n l attempt e)
      else none
    | .finished _ => none

/-! ### Transactions -/

def isAttempting (k : Nat) (l : Loop) : Bool :=
  match l.stage with
  | .attempting _ _ j _ => j = k
  | _ => false

/-- The transaction has ended. -/
def isFinished : TransactionStage → Bool
  | .finished .. => true
  | _ => false

/-- Ends the turn of a transaction, and wakes the next one and the loop that waits for it. -/
def endTurn (n : Nat) (s : State) : State :=
  let s := s.mapSelf fun o => { o with line := o.line.erase n }
  s.wakeAll (s.self.line.head?.toList.map .transaction ++
    (numbersWhere (isAttempting n) s.self.loops).map .loop)

/-- One step of the n-th transaction, if it can go on. -/
def stepTransaction (n : Nat) (s : State) : Option State :=
  match s.self.transactions[n]? with
  | none => none
  | some t =>
    match t.step s.self.blueprint n (s.self.line.head? = some n) s.toSite with
    | none => none
    | some (site, stage) =>
      let s := { s with toSite := site }.mapSelf (·.setTransaction n stage)
      some (if isFinished stage then s.endTurn n else s)

/-! ### Callers -/

/-- A call to deploy, which is to enter. -/
def addCaller (request : Request) (heal : Bool) (s : State) : State :=
  s.mapSelf fun o => { o with callers := o.callers ++ [{ request, heal }] }

/-- Frees the slot of a loop. -/
def freeSlot (loop : Nat) (s : State) : State :=
  s.mapSelf fun o => { o with slot := if o.slot = some loop then none else o.slot }

/-- Answers a caller. -/
def answer (n : Nat) (c : Caller) (outcome : Option Outcome) (s : State) : State :=
  let s := s.mapSelf (·.setCaller n (.finished s.world.now outcome))
  let s := if c.heal && outcome.isNone then s.warn "self-heal deployment did not complete" else s
  s.letGo

/-- Frees the slot if the caller has started its loop. -/
def leaveLoop (loop : Nat) (starter : Bool) (s : State) : State :=
  if starter then s.freeSlot loop else s

/-- Cancels a loop. -/
def cancelLoop (n : Nat) (s : State) : State :=
  let waits := (s.self.loops[n]?.map isBackingOff).getD false
  let s := s.mapSelf fun o =>
    { o with loops := o.loops.modify n fun l => { l with cancelled := true } }
  if waits then s.wake (.loop n) else s

/-- Lets a new deployment take the place of the active one. -/
def supersede (deployment : DeploymentId) (s : State) : State :=
  match s.self.active.bind fun n => s.self.loops[n]?.map fun l => (n, l.deployment) with
  | some (n, previous) => (s.cancelLoop n).emit (.superseded previous deployment)
  | none => s

def startMessage (request : Request) : String :=
  if request.files.isEmpty then "Deploying all files"
  else "Deploying " ++ toString request.files.length ++ " file(s)"

/-- Starts a deployment. -/
def startLoop (request : Request) (s : State) : State :=
  let (deployment, w) := s.world.mintDeployment
  let k := s.self.loops.length
  let s := { s with world := w }.supersede deployment
  let s := s.count .started
  let s := s.emit (.started deployment s.identity.session.id (startMessage request)
    (request.files.map (·.path)))
  (s.mapSelf fun o =>
    { o with
      loops := o.loops ++ [{ deployment, request, startedAt := s.world.now }]
      active := some k
      slot := some k }).wake (.loop k)

/-- Lets a caller wait for a loop. -/
def await (n loop : Nat) (starter : Bool) (s : State) : State :=
  let now := s.world.now
  s.mapSelf (·.setCaller n
    (.waiting loop now (now + s.self.config.masterTimeout.ceilMillis) starter))

/-- Joins the deployment that callers wait for, or starts one. -/
def enter (n : Nat) (c : Caller) (s : State) : State :=
  if s.self.isClosed then s.answer n c none
  else
    match s.self.slot with
    | some k => (s.count .coalesced).await n k false
    | none =>
      let k := s.self.loops.length
      (s.startLoop c.request).await n k true

def timeoutText (c : Config) : String :=
  "deployment not ready after " ++ toString c.masterTimeout.secs ++ "s"

/-- Tells that a caller has waited long enough. -/
def giveUp (since : Nat) (deployment : DeploymentId) (s : State) : State :=
  let s := s.count .timedOut
  s.emit (.timedOut deployment (timeoutText s.self.config)
    (UInt64.ofNat (s.world.now - since)))

/-- One step of the n-th caller, if it can go on. -/
def stepCaller (n : Nat) (s : State) : Option State :=
  match s.self.callers[n]? with
  | none => none
  | some c =>
    match c.stage with
    | .entering => some (s.enter n c)
    | .waiting k since deadline starter =>
      match s.self.loops[k]? with
      | none => none
      | some l =>
        match l.stage with
        | .finished outcome => some ((s.leaveLoop k starter).answer n c outcome)
        | _ =>
          if deadline ≤ s.world.now then
            some (((s.giveUp since l.deployment).leaveLoop k starter).answer n c none)
          else none
    | .finished .. | .gone => none

/-! ### Watches -/

/-- Heals an instance. -/
def heal (s : State) : State :=
  match s.self.healer with
  | .deploys => (s.addCaller .allFiles true).wake (.caller s.self.callers.length)
  | .reports => s.mapWorld (·.note .healed)
  | .gone => s

/-- One step of the n-th watch, if it can go on. -/
def stepWatch (n : Nat) (s : State) : Option State :=
  match s.self.monitor.step s.self.healers n s.toSite with
  | none => none
  | some (site, monitor, heals) =>
    let s := { s with toSite := site }.mapSelf fun o => { o with monitor }
    some (if heals then s.heal else s)

/-- One step of a task, if it can go on. -/
def step (t : Task) (s : State) : Option State :=
  match t with
  | .transaction n => s.stepTransaction n
  | .loop n => s.stepLoop n
  | .caller n => s.stepCaller n
  | .watch n => s.stepWatch n
  | .direct => none

/-! ### What is done from outside -/

/-- Stops the monitor and the loops, and refuses calls from now on. -/
def shutdown (s : State) : State :=
  if s.self.isClosed then s
  else s.close.mapSelf fun o => { o with monitor := o.monitor.disarm, active := none }

/-- Takes the watch that counts away. -/
def disarm (s : State) : State :=
  (s.mapSelf fun o => { o with monitor := o.monitor.disarm }).wakeAll
    (s.self.monitor.armed.toList.map .watch)

/-- Lets a caller go away. -/
def abandon (n : Nat) (s : State) : State :=
  match s.self.callers[n]? with
  | none => s
  | some c =>
    match c.stage with
    | .finished .. | .gone => s
    | .entering => (s.mapSelf (·.setCaller n .gone)).letGo
    | .waiting k _ _ starter => ((s.mapSelf (·.setCaller n .gone)).leaveLoop k starter).letGo

/-- Lets go of the orchestrator. -/
def release (s : State) : State := (s.mapSelf fun o => { o with held := false }).letGo

def setDebugging (debugging : Bool) (s : State) : State := s.mapSelf fun o => { o with debugging }

def queueSetup (commands : List String) (s : State) : State :=
  s.mapSelf fun o => { o with setup := o.setup ++ commands }

end State

end PreviewDeploy
