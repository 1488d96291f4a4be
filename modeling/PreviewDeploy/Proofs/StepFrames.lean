import PreviewDeploy.Proofs.Frames

/-!
# What steps do to an orchestrator

One lemma for each operation that steps are made of says what becomes of the orchestrator; beside
it stands what becomes of its identity and of its world.  Proofs about steps go by these and do
not look into the operations.
-/

namespace PreviewDeploy.State

/-! ### Entries of a list that grows -/

theorem of_getElem?_concat {α : Type} {xs : List α} {y x : α} {k : Nat}
    (h : (xs ++ [y])[k]? = some x) : xs[k]? = some x ∨ (k = xs.length ∧ x = y) := by
  rcases Nat.lt_trichotomy k xs.length with hlt | rfl | hgt
  · rw [List.getElem?_append_left hlt] at h
    exact .inl h
  · rw [List.getElem?_concat_length, Option.some.injEq] at h
    exact .inr ⟨rfl, h.symm⟩
  · have := (List.getElem?_eq_some_iff.mp h).1
    rw [List.length_append, List.length_singleton] at this
    omega

theorem getElem?_concat_of_some {α : Type} {xs : List α} {y x : α} {k : Nat}
    (h : xs[k]? = some x) : (xs ++ [y])[k]? = some x := by
  rw [List.getElem?_append_left (List.getElem?_eq_some_iff.mp h).1, h]

variable (s : State)

/-! ### Closing -/

/-- Cancels the loops and closes the monitor. -/
def closeSelf (o : Orchestrator) : Orchestrator :=
  { o with
    monitor := o.monitor.close
    loops := o.loops.map fun l => { l with cancelled := true } }

@[simp] theorem close_frame :
    s.close.self = closeSelf s.self ∧ s.close.identity = s.identity ∧
      s.close.world.now = s.world.now ∧ s.close.world.project = s.world.project ∧
      s.close.world.calls = s.world.calls ∧ s.close.world.events = s.world.events := by
  simp [close, closeSelf]

/-- Nobody holds the orchestrator and it has a healer, so it is to be closed. -/
def isLeft (o : Orchestrator) : Bool := isLoose o && o.healer ≠ .gone

/-- The orchestrator once those have gone who held it. -/
def leftSelf (o : Orchestrator) : Orchestrator :=
  if isLeft o then { closeSelf o with healer := .gone } else o

@[simp] theorem leftSelf_frame (o : Orchestrator) :
    (leftSelf o).config = o.config ∧ (leftSelf o).blueprint = o.blueprint ∧
      (leftSelf o).transactions = o.transactions ∧ (leftSelf o).line = o.line ∧
      (leftSelf o).setup = o.setup ∧ (leftSelf o).callers = o.callers ∧
      (leftSelf o).slot = o.slot ∧ (leftSelf o).active = o.active ∧
      (leftSelf o).held = o.held := by
  unfold leftSelf
  split <;> simp [closeSelf]

@[simp] theorem letGo_self : s.letGo.self = leftSelf s.self := by
  unfold letGo leftSelf
  simp only [isLeft, Bool.and_eq_true, decide_eq_true_eq]
  split <;> simp

@[simp] theorem letGo_site :
    s.letGo.identity = s.identity ∧ s.letGo.world.now = s.world.now ∧
      s.letGo.world.project = s.world.project ∧ s.letGo.world.calls = s.world.calls ∧
      s.letGo.world.events = s.world.events := by
  unfold letGo
  split <;> simp

/-! ### Loops -/

@[simp] theorem endLoop_frame (n : Nat) (outcome : Option Outcome) :
    (s.endLoop n outcome).self =
        { s.self.setLoop n (.finished outcome) with
          active := if s.self.active = some n then none else s.self.active } ∧
      (s.endLoop n outcome).identity = s.identity ∧
      (s.endLoop n outcome).world.now = s.world.now ∧
      (s.endLoop n outcome).world.project = s.world.project ∧
      (s.endLoop n outcome).world.calls = s.world.calls ∧
      (s.endLoop n outcome).world.events = s.world.events := by
  simp [endLoop]

@[simp] theorem enqueue_frame (request : Request) :
    (s.enqueue request).self =
        { s.self with
          transactions := s.self.transactions ++ [{ request }]
          line := s.self.line ++ [s.self.transactions.length] } ∧
      (s.enqueue request).identity = s.identity ∧
      (s.enqueue request).world.now = s.world.now ∧
      (s.enqueue request).world.project = s.world.project ∧
      (s.enqueue request).world.calls = s.world.calls ∧
      (s.enqueue request).world.events = s.world.events := by
  simp [enqueue]

/-- A new attempt: the loop waits for a transaction at the end of the line. -/
def attemptSelf (n : Nat) (request : Request) (attempt : UInt32) (session : SessionId) (now : Nat)
    (o : Orchestrator) : Orchestrator :=
  { o.setLoop n (.attempting attempt session o.transactions.length
      (now + o.config.attemptTimeout.ceilMillis)) with
    transactions := o.transactions ++ [{ request }]
    line := o.line ++ [o.transactions.length] }

theorem beginAttempt_of_cancelled {l : Loop} (h : l.cancelled = true) (n : Nat)
    (attempt : UInt32) : s.beginAttempt n l attempt = s.endLoop n none := by
  simp [beginAttempt, h]

theorem beginAttempt_frame {l : Loop} (h : l.cancelled = false) (n : Nat) (attempt : UInt32) :
    (s.beginAttempt n l attempt).self =
        attemptSelf n l.request attempt s.identity.session.id s.world.now s.self ∧
      (s.beginAttempt n l attempt).identity = s.identity ∧
      (s.beginAttempt n l attempt).world.now = s.world.now ∧
      (s.beginAttempt n l attempt).world.project = s.world.project ∧
      (s.beginAttempt n l attempt).world.calls = s.world.calls ∧
      (s.beginAttempt n l attempt).world.events = s.world.events := by
  simp [beginAttempt, h, attemptSelf, Orchestrator.setLoop]

@[simp] theorem rotateFor_frame (reason : String) :
    (s.rotateFor reason).self = s.self ∧
      (s.rotateFor reason).identity =
        { s.identity with session := s.world.mintSession.1, client := none, inst := none } ∧
      (s.rotateFor reason).world.now = s.world.now ∧
      (s.rotateFor reason).world.project = s.world.project ∧
      (s.rotateFor reason).world.calls = s.world.calls ∧
      (s.rotateFor reason).world.events = s.world.events ++
        [.sessionRotated s.identity.session.id s.world.mintSession.1.id reason] := by
  simp [rotateFor]

/-- The identity after a failed attempt. -/
def identityAfter (rotated : Bool) (s : State) : Identity :=
  if rotated then { s.identity with session := s.world.mintSession.1, client := none, inst := none }
  else { s.identity with inst := none }

/-- The events of a failed attempt. -/
def failureEvents (l : Loop) (attempt : UInt32) (session : SessionId) (f : Failure) (s : State) :
    List Event :=
  (if rotates s.self.config attempt f then
      [.sessionRotated s.identity.session.id s.world.mintSession.1.id (rotationReason attempt f)]
    else []) ++
    [.attemptFailed l.deployment session attempt f.message f.kind
      (UInt64.ofNat (s.self.config.backoff.delay attempt).millis)
      (rotates s.self.config attempt f)]

@[simp] theorem failAttempt_frame (n : Nat) (l : Loop) (attempt : UInt32) (session : SessionId)
    (f : Failure) :
    (s.failAttempt n l attempt session f).self =
        s.self.setLoop n (.backingOff attempt
          (s.world.now + (s.self.config.backoff.delay attempt).ceilMillis)) ∧
      (s.failAttempt n l attempt session f).identity =
        identityAfter (rotates s.self.config attempt f) s ∧
      (s.failAttempt n l attempt session f).world.now = s.world.now ∧
      (s.failAttempt n l attempt session f).world.project = s.world.project ∧
      (s.failAttempt n l attempt session f).world.calls = s.world.calls ∧
      (s.failAttempt n l attempt session f).world.events =
        s.world.events ++ failureEvents l attempt session f s := by
  unfold failAttempt
  cases h : rotates s.self.config attempt f with
  | true =>
      simp [identityAfter, failureEvents, h]
      exact ⟨rfl, rfl⟩
  | false => simp [identityAfter, failureEvents, h]

@[simp] theorem arm_frame (inst : InstanceId) :
    (s.arm inst).self = { s.self with monitor := s.self.monitor.arm inst s.world.now } ∧
      (s.arm inst).identity = s.identity ∧ (s.arm inst).world.now = s.world.now ∧
      (s.arm inst).world.project = s.world.project ∧
      (s.arm inst).world.calls = s.world.calls ∧
      (s.arm inst).world.events = s.world.events := by
  simp [arm]

/-- The event of a deployment that is completed. -/
def completion (l : Loop) (attempt : UInt32) (e : Execution) (now : Nat) : Event :=
  .completed l.deployment "Deployment ready" e.inst attempt (UInt64.ofNat (now - l.startedAt))
    e.fresh

@[simp] theorem complete_frame (n : Nat) (l : Loop) (attempt : UInt32) (e : Execution) :
    (s.complete n l attempt e).self =
        { s.self.setLoop n (.finished (some e.inst.outcome)) with
          active := if s.self.active = some n then none else s.self.active } ∧
      (s.complete n l attempt e).identity = s.identity ∧
      (s.complete n l attempt e).world.now = s.world.now ∧
      (s.complete n l attempt e).world.project = s.world.project ∧
      (s.complete n l attempt e).world.calls = s.world.calls ∧
      (s.complete n l attempt e).world.events =
        s.world.events ++ [completion l attempt e s.world.now] := by
  simp [complete, completion]

theorem beginSetup_of_nil (h : s.self.setup = []) (task : Task) (client : Client)
    (inst : InstanceId) :
    s.beginSetup task client inst = (none, s.mapSelf fun o => { o with setup := [] }) := by
  simp [beginSetup, h]

/-- The site after the setup commands were sent. -/
def setupSite (task : Task) (client : Client) (inst : InstanceId) (s : State) : Site :=
  { s.toSite with world := (s.world.askCommands task client inst s.self.setup).2 }

theorem beginSetup_of_ne_nil (h : s.self.setup ≠ []) (task : Task) (client : Client)
    (inst : InstanceId) :
    s.beginSetup task client inst =
      (some (s.world.askCommands task client inst s.self.setup).1,
        { toSite := setupSite task client inst s, self := { s.self with setup := [] } }) := by
  have h : s.self.setup.isEmpty = false := by simpa using h
  simp only [beginSetup, h, Bool.false_eq_true, if_false]
  rfl

/-- Arms the monitor after a success, if the instance is new or no watch counts. -/
def armFor (e : Execution) (s : State) : State :=
  if e.fresh || !s.self.monitor.isArmed then s.arm e.inst.id else s

/-- The orchestrator whose monitor is armed if need be. -/
def armedSelf (e : Execution) (now : Nat) (o : Orchestrator) : Orchestrator :=
  if e.fresh || !o.monitor.isArmed then { o with monitor := o.monitor.arm e.inst.id now } else o

@[simp] theorem armFor_frame (e : Execution) :
    (armFor e s).self = armedSelf e s.world.now s.self ∧ (armFor e s).identity = s.identity ∧
      (armFor e s).world.now = s.world.now ∧ (armFor e s).world.project = s.world.project ∧
      (armFor e s).world.calls = s.world.calls ∧
      (armFor e s).world.events = s.world.events := by
  unfold armFor armedSelf
  split <;> simp

@[simp] theorem armedSelf_frame (e : Execution) (now : Nat) (o : Orchestrator) :
    (armedSelf e now o).config = o.config ∧ (armedSelf e now o).blueprint = o.blueprint ∧
      (armedSelf e now o).transactions = o.transactions ∧ (armedSelf e now o).line = o.line ∧
      (armedSelf e now o).setup = o.setup ∧ (armedSelf e now o).loops = o.loops ∧
      (armedSelf e now o).callers = o.callers ∧ (armedSelf e now o).slot = o.slot ∧
      (armedSelf e now o).active = o.active ∧ (armedSelf e now o).healer = o.healer ∧
      (armedSelf e now o).held = o.held := by
  unfold armedSelf
  split <;> simp

theorem succeed_eq (n : Nat) (l : Loop) (attempt : UInt32) (e : Execution) :
    s.succeed n l attempt e =
      match (armFor e s).beginSetup (.loop n) e.client e.inst.id with
      | (none, s) => s.complete n l attempt e
      | (some reply, s) => s.mapSelf (·.setLoop n (.settingUp attempt e reply)) := rfl

/-- Without setup commands a success completes the deployment. -/
theorem succeed_of_nil (h : s.self.setup = []) (n : Nat) (l : Loop) (attempt : UInt32)
    (e : Execution) :
    (s.succeed n l attempt e).self =
        { (armedSelf e s.world.now s.self).setLoop n (.finished (some e.inst.outcome)) with
          setup := []
          active := if s.self.active = some n then none else s.self.active } ∧
      (s.succeed n l attempt e).identity = s.identity ∧
      (s.succeed n l attempt e).world.now = s.world.now ∧
      (s.succeed n l attempt e).world.project = s.world.project ∧
      (s.succeed n l attempt e).world.calls = s.world.calls ∧
      (s.succeed n l attempt e).world.events =
        s.world.events ++ [completion l attempt e s.world.now] := by
  have h' : (armFor e s).self.setup = [] := by simp [h]
  rw [succeed_eq, beginSetup_of_nil _ h']
  simp [Orchestrator.setLoop]

/-- With setup commands a success sends them, and the loop waits for their end. -/
theorem succeed_of_ne_nil (h : s.self.setup ≠ []) (n : Nat) (l : Loop) (attempt : UInt32)
    (e : Execution) :
    (∃ reply, (s.succeed n l attempt e).self =
        { (armedSelf e s.world.now s.self).setLoop n (.settingUp attempt e reply) with
          setup := [] }) ∧
      (s.succeed n l attempt e).identity = s.identity ∧
      (s.succeed n l attempt e).world.now = s.world.now ∧
      (s.succeed n l attempt e).world.project = s.world.project ∧
      (s.succeed n l attempt e).world.calls = s.world.calls ++
        [(.loop n, e.client, .commands e.inst.id s.self.setup)] ∧
      (s.succeed n l attempt e).world.events = s.world.events := by
  have h' : (armFor e s).self.setup ≠ [] := by simpa using h
  rw [succeed_eq, beginSetup_of_ne_nil _ h']
  refine ⟨⟨((armFor e s).world.askCommands (.loop n) e.client e.inst.id (armFor e s).self.setup).1,
    ?_⟩, ?_⟩
  · rw [← (armFor_frame s e).1]
    rfl
  · simp [mapSelf, setupSite, World.askCommands]

@[simp] theorem reportSetup_frame
    (result : Except ControlPlane.Fault ControlPlane.CommandsResponse) (w : World) :
    (reportSetup result w).now = w.now ∧ (reportSetup result w).project = w.project ∧
      (reportSetup result w).calls = w.calls ∧ (reportSetup result w).events = w.events := by
  have warnings (rs : List ControlPlane.CommandResult) (w : World) :
      (rs.foldl (fun w _ => w.warn "setup command failed") w).now = w.now ∧
        (rs.foldl (fun w _ => w.warn "setup command failed") w).project = w.project ∧
        (rs.foldl (fun w _ => w.warn "setup command failed") w).calls = w.calls ∧
        (rs.foldl (fun w _ => w.warn "setup command failed") w).events = w.events := by
    induction rs generalizing w with
    | nil => simp
    | cons r rs ih => simp [ih]
  unfold reportSetup
  cases result with
  | error fault => simp
  | ok response =>
      simp only
      split <;> simp [warnings]

/-! ### Transactions -/

@[simp] theorem endTurn_frame (n : Nat) :
    (s.endTurn n).self = { s.self with line := s.self.line.erase n } ∧
      (s.endTurn n).identity = s.identity ∧ (s.endTurn n).world.now = s.world.now ∧
      (s.endTurn n).world.project = s.world.project ∧
      (s.endTurn n).world.calls = s.world.calls ∧
      (s.endTurn n).world.events = s.world.events := by
  simp [endTurn]

/-! ### Callers -/

@[simp] theorem addCaller_frame (request : Request) (heal : Bool) :
    (s.addCaller request heal).self =
        { s.self with callers := s.self.callers ++ [{ request, heal }] } ∧
      (s.addCaller request heal).toSite = s.toSite := ⟨rfl, rfl⟩

/-- The slot after a caller has left its loop. -/
def slotAfter (loop : Nat) (starter : Bool) (slot : Option Nat) : Option Nat :=
  if starter ∧ slot = some loop then none else slot

@[simp] theorem leaveLoop_frame (loop : Nat) (starter : Bool) :
    (s.leaveLoop loop starter).self =
        { s.self with slot := slotAfter loop starter s.self.slot } ∧
      (s.leaveLoop loop starter).toSite = s.toSite := by
  unfold leaveLoop slotAfter
  cases starter <;> simp [freeSlot]

@[simp] theorem answer_frame (n : Nat) (c : Caller) (outcome : Option Outcome) :
    (s.answer n c outcome).self =
        leftSelf (s.self.setCaller n (.finished s.world.now outcome)) ∧
      (s.answer n c outcome).identity = s.identity ∧
      (s.answer n c outcome).world.now = s.world.now ∧
      (s.answer n c outcome).world.project = s.world.project ∧
      (s.answer n c outcome).world.calls = s.world.calls ∧
      (s.answer n c outcome).world.events = s.world.events := by
  unfold answer
  simp only [letGo_self, letGo_site]
  split <;> simp

@[simp] theorem cancelLoop_frame (n : Nat) :
    (s.cancelLoop n).self =
        { s.self with loops := s.self.loops.modify n fun l => { l with cancelled := true } } ∧
      (s.cancelLoop n).identity = s.identity ∧ (s.cancelLoop n).world.now = s.world.now ∧
      (s.cancelLoop n).world.project = s.world.project ∧
      (s.cancelLoop n).world.calls = s.world.calls ∧
      (s.cancelLoop n).world.events = s.world.events := by
  unfold cancelLoop
  simp only
  split <;> simp

/-- The loop whose place a new deployment takes. -/
def superseded? (o : Orchestrator) : Option (Nat × Loop) :=
  o.active.bind fun n => o.loops[n]?.map fun l => (n, l)

/-- The loops after the one before has been cancelled. -/
def loopsAfter (o : Orchestrator) : List Loop :=
  match superseded? o with
  | some (n, _) => o.loops.modify n fun l => { l with cancelled := true }
  | none => o.loops

/-- What is told of a deployment that is superseded. -/
def supersession (deployment : DeploymentId) (o : Orchestrator) : List Event :=
  match superseded? o with
  | some (_, l) => [.superseded l.deployment deployment]
  | none => []

@[simp] theorem supersede_frame (deployment : DeploymentId) :
    (s.supersede deployment).self = { s.self with loops := loopsAfter s.self } ∧
      (s.supersede deployment).identity = s.identity ∧
      (s.supersede deployment).world.now = s.world.now ∧
      (s.supersede deployment).world.project = s.world.project ∧
      (s.supersede deployment).world.calls = s.world.calls ∧
      (s.supersede deployment).world.events =
        s.world.events ++ supersession deployment s.self := by
  unfold supersede loopsAfter supersession superseded?
  cases s.self.active with
  | none => simp
  | some n =>
      cases h : s.self.loops[n]? with
      | none => simp [h]
      | some l => simp [h]

/-- A loop that is about to begin. -/
def newLoop (request : Request) (s : State) : Loop :=
  { deployment := s.world.mintDeployment.1, request, startedAt := s.world.now }

/-- What is told at the start of a deployment. -/
def startEvents (request : Request) (s : State) : List Event :=
  supersession s.world.mintDeployment.1 s.self ++
    [.started s.world.mintDeployment.1 s.identity.session.id (startMessage request)
      (request.files.map (·.path))]

@[simp] theorem startLoop_frame (request : Request) :
    (s.startLoop request).self =
        { s.self with
          loops := loopsAfter s.self ++ [newLoop request s]
          active := some s.self.loops.length
          slot := some s.self.loops.length } ∧
      (s.startLoop request).identity = s.identity ∧
      (s.startLoop request).world.now = s.world.now ∧
      (s.startLoop request).world.project = s.world.project ∧
      (s.startLoop request).world.calls = s.world.calls ∧
      (s.startLoop request).world.events = s.world.events ++ startEvents request s := by
  unfold startLoop
  simp [newLoop, startEvents]

/-- A caller that waits for a loop from now on. -/
def waitingFrom (now loop : Nat) (starter : Bool) (o : Orchestrator) : CallerStage :=
  .waiting loop now (now + o.config.masterTimeout.ceilMillis) starter

@[simp] theorem await_frame (n loop : Nat) (starter : Bool) :
    (s.await n loop starter).self =
        s.self.setCaller n (waitingFrom s.world.now loop starter s.self) ∧
      (s.await n loop starter).toSite = s.toSite := ⟨rfl, rfl⟩

/-- The event of a caller that has waited long enough. -/
def expiry (since : Nat) (deployment : DeploymentId) (s : State) : Event :=
  .timedOut deployment (timeoutText s.self.config) (UInt64.ofNat (s.world.now - since))

@[simp] theorem giveUp_frame (since : Nat) (deployment : DeploymentId) :
    (s.giveUp since deployment).self = s.self ∧
      (s.giveUp since deployment).identity = s.identity ∧
      (s.giveUp since deployment).world.now = s.world.now ∧
      (s.giveUp since deployment).world.project = s.world.project ∧
      (s.giveUp since deployment).world.calls = s.world.calls ∧
      (s.giveUp since deployment).world.events =
        s.world.events ++ [expiry since deployment s] := by
  simp [giveUp, expiry]

/-! ### Watches and what is done from outside -/

/-- A caller is added who deploys for the monitor, if there is one to do so. -/
def healedSelf (o : Orchestrator) : Orchestrator :=
  if o.healer = .deploys then
    { o with callers := o.callers ++ [{ request := .allFiles, heal := true }] }
  else o

@[simp] theorem healedSelf_frame (o : Orchestrator) :
    (healedSelf o).config = o.config ∧ (healedSelf o).blueprint = o.blueprint ∧
      (healedSelf o).transactions = o.transactions ∧ (healedSelf o).line = o.line ∧
      (healedSelf o).setup = o.setup ∧ (healedSelf o).monitor = o.monitor ∧
      (healedSelf o).loops = o.loops ∧ (healedSelf o).slot = o.slot ∧
      (healedSelf o).active = o.active ∧ (healedSelf o).healer = o.healer ∧
      (healedSelf o).held = o.held := by
  unfold healedSelf
  split <;> simp

@[simp] theorem heal_frame :
    s.heal.self = healedSelf s.self ∧ s.heal.identity = s.identity ∧
      s.heal.world.now = s.world.now ∧ s.heal.world.project = s.world.project ∧
      s.heal.world.calls = s.world.calls ∧ s.heal.world.events = s.world.events := by
  unfold heal healedSelf
  cases h : s.self.healer <;> simp [h, World.calls_note, World.events_note]

/-- The orchestrator after it was shut down. -/
def shutSelf (o : Orchestrator) : Orchestrator :=
  if o.isClosed then o
  else { closeSelf o with monitor := o.monitor.close.disarm, active := none }

@[simp] theorem shutSelf_frame (o : Orchestrator) :
    (shutSelf o).config = o.config ∧ (shutSelf o).blueprint = o.blueprint ∧
      (shutSelf o).transactions = o.transactions ∧ (shutSelf o).line = o.line ∧
      (shutSelf o).setup = o.setup ∧ (shutSelf o).callers = o.callers ∧
      (shutSelf o).slot = o.slot ∧ (shutSelf o).healer = o.healer ∧
      (shutSelf o).held = o.held := by
  unfold shutSelf
  split <;> simp [closeSelf]

@[simp] theorem shutdown_frame :
    s.shutdown.self = shutSelf s.self ∧ s.shutdown.identity = s.identity ∧
      s.shutdown.world.now = s.world.now ∧ s.shutdown.world.project = s.world.project ∧
      s.shutdown.world.calls = s.world.calls ∧ s.shutdown.world.events = s.world.events := by
  unfold shutdown shutSelf
  split
  · simp
  · simp [closeSelf]

/-- The orchestrator after its n-th caller has gone away, unless the caller was done. -/
def abandonSelf (n : Nat) (o : Orchestrator) : Orchestrator :=
  match (o.callers[n]?.map (·.stage)).getD .gone with
  | .finished .. | .gone => o
  | .entering => leftSelf (o.setCaller n .gone)
  | .waiting k _ _ starter =>
    leftSelf { o.setCaller n .gone with slot := slotAfter k starter o.slot }

@[simp] theorem abandonSelf_frame (n : Nat) (o : Orchestrator) :
    (abandonSelf n o).config = o.config ∧ (abandonSelf n o).blueprint = o.blueprint ∧
      (abandonSelf n o).transactions = o.transactions ∧ (abandonSelf n o).line = o.line ∧
      (abandonSelf n o).setup = o.setup ∧ (abandonSelf n o).active = o.active ∧
      (abandonSelf n o).held = o.held := by
  unfold abandonSelf
  split <;> simp [Orchestrator.setCaller]

@[simp] theorem abandon_frame (n : Nat) :
    (s.abandon n).self = abandonSelf n s.self ∧ (s.abandon n).identity = s.identity ∧
      (s.abandon n).world.now = s.world.now ∧ (s.abandon n).world.project = s.world.project ∧
      (s.abandon n).world.calls = s.world.calls ∧
      (s.abandon n).world.events = s.world.events := by
  unfold abandon abandonSelf
  cases hc : s.self.callers[n]? with
  | none => simp
  | some c => cases hs : c.stage <;> simp [hs, Orchestrator.setCaller]

@[simp] theorem release_frame :
    s.release.self = leftSelf { s.self with held := false } ∧
      s.release.identity = s.identity ∧ s.release.world.now = s.world.now ∧
      s.release.world.project = s.world.project ∧ s.release.world.calls = s.world.calls ∧
      s.release.world.events = s.world.events := by
  simp [release]

end PreviewDeploy.State
