import PreviewDeploy.Orchestrator.Run
import PreviewDeploy.Proofs.StepFrames

/-!
# Outages of the store

Nothing that an orchestrator does depends on what becomes of its writes to the store.  To see this
the store is taken away from a state, and with it the complaints about failed writes
(`State.storeless`): whatever the orchestrator does, it does the same without the store
(`State.perform_storeless`, and `State.follow_storeless` for a run).  So two runs in which other
writes fail cannot be told apart by anybody who does not look into the store.
-/

namespace PreviewDeploy

open ControlPlane (Fault)

/-! ### Worlds -/

namespace World

/-- What is logged when a write to the store has failed. -/
def complaints : List String :=
  ["failed to persist session", "failed to persist instance", "failed to record deployment start",
    "failed to record attempt", "failed to record deployment completion",
    "failed to record timeout", "failed to record superseded deployment"]

end World

/-- The log complains of a write to the store. -/
def Happening.isComplaint : Happening → Bool
  | .warning text => World.complaints.contains text
  | _ => false

namespace World

/-- The log without the complaints about the store. -/
def otherLog (w : World) : List (Nat × Happening) := w.log.filter fun e => !e.2.isComplaint

/-- The world without its store and the complaints about it. -/
def storeless (w : World) : World := { w with store := none, outages := [], log := w.otherLog }

variable (w : World)

@[simp] theorem storeless_now : w.storeless.now = w.now := rfl

theorem note_storeless {h : Happening} (other : h.isComplaint = false) :
    w.storeless.note h = (w.note h).storeless := by
  simp [note, storeless, otherLog, other]

theorem storeless_note {h : Happening} (complaint : h.isComplaint = true) :
    (w.note h).storeless = w.storeless := by
  simp [note, storeless, otherLog, complaint]

theorem warn_storeless {text : String} (other : (Happening.warning text).isComplaint = false) :
    w.storeless.warn text = (w.warn text).storeless :=
  w.note_storeless other

@[simp] theorem wake_storeless (number : Nat) (t : Task) :
    w.storeless.wake number t = (w.wake number t).storeless := by
  unfold wake
  split <;> simp_all [storeless, otherLog]

@[simp] theorem countWith_storeless (f : Metrics → Metrics) :
    w.storeless.countWith f = (w.countWith f).storeless := rfl

@[simp] theorem count_storeless (c : Counter) : w.storeless.count c = (w.count c).storeless := rfl

/-- A write to the store that fails leaves a complaint, and one that succeeds leaves nothing else
than the store. -/
theorem storeless_persist {complaint : String} (h : complaint ∈ complaints)
    (write : Store → Except Store.StoreError Store) :
    (w.persist complaint write).storeless = w.storeless := by
  unfold persist
  split
  · rfl
  · simp only
    split
    · rfl
    · exact storeless_note _ (List.contains_iff_mem.mpr h)

@[simp] theorem persist_storeless (complaint : String)
    (write : Store → Except Store.StoreError Store) :
    w.storeless.persist complaint write = w.storeless := rfl

theorem mem_complaints_of_entry {p : String} {e : Event} {now : Timestamp} {entry : Journal.Entry}
    (h : Journal.entry? p e now = some entry) : "failed to record " ++ entry.what ∈ complaints := by
  cases e <;> cases h <;> simp [complaints]

@[simp] theorem journal_storeless (project : Option String) (e : Event) :
    w.storeless.journal project e = (w.journal project e).storeless := by
  have htime : w.storeless.time = w.time := rfl
  unfold journal
  rw [htime]
  cases h : project.bind fun p => Journal.entry? p e w.time with
  | none => rfl
  | some entry =>
      obtain ⟨p, -, hentry⟩ := Option.bind_eq_some_iff.mp h
      exact (storeless_persist w (mem_complaints_of_entry hentry) entry.write).symm

/-- The line of an event is no complaint about the store. -/
theorem logLine_storeless (e : Event) :
    w.storeless.logLine e.line = (w.logLine e.line).storeless := by
  unfold logLine
  split
  · rename_i hlevel
    refine w.warn_storeless ?_
    cases e with
    | attemptFailed => simp [Event.line, Happening.isComplaint, complaints]
    | timedOut => simp [Event.line, Happening.isComplaint, complaints]
    | _ => cases hlevel
  · rfl

@[simp] theorem emit_storeless (project : Option String) (e : Event) :
    w.storeless.emit project e = (w.emit project e).storeless := by
  unfold emit
  rw [journal_storeless, logLine_storeless, note_storeless _ rfl]

@[simp] theorem ask_storeless {α : Type} (task : Task) (client : Client)
    (request : ControlPlane.Request)
    (take : ControlPlane.Script → ControlPlane.Reply α × ControlPlane.Script) :
    w.storeless.ask task client request take =
      ((w.ask task client request take).1, (w.ask task client request take).2.storeless) := by
  unfold ask
  exact congrArg _ (note_storeless { w with script := (take w.script).2 } rfl)

end World

/-! ### Sites -/

namespace Site

def storeless (s : Site) : Site := { s with world := s.world.storeless }

variable (s : Site)

@[simp] theorem storeless_world : s.storeless.world = s.world.storeless := rfl

@[simp] theorem storeless_identity : s.storeless.identity = s.identity := rfl

theorem warn_storeless {text : String} (other : (Happening.warning text).isComplaint = false) :
    s.storeless.warn text = (s.warn text).storeless :=
  congrArg (Site.mk · s.identity) (s.world.warn_storeless other)

theorem warnEach_storeless {α : Type} {text : String}
    (other : (Happening.warning text).isComplaint = false) (xs : List α) :
    xs.foldl (fun s _ => s.warn text) s.storeless =
      (xs.foldl (fun s _ => s.warn text) s).storeless :=
  List.foldl_hom Site.storeless fun s _ => s.warn_storeless other

@[simp] theorem emit_storeless (e : Event) : s.storeless.emit e = (s.emit e).storeless :=
  congrArg (Site.mk · s.identity) (s.world.emit_storeless s.identity.project e)

@[simp] theorem countWith_storeless (f : Metrics → Metrics) :
    s.storeless.mapWorld (·.countWith f) = (s.mapWorld (·.countWith f)).storeless := rfl

@[simp] theorem connect_storeless :
    s.storeless.connect = (s.connect.1, s.connect.2.storeless) := by
  unfold connect
  simp only [storeless_identity]
  split
  · rfl
  · exact congrArg (fun w => (_, Site.mk w _))
      (World.note_storeless { s.world with clients := s.world.clients + 1 } rfl)

end Site

namespace Identity

variable (id : Identity) (w : World)

@[simp] theorem sessionSaved_storeless :
    id.sessionSaved w.storeless = (id.sessionSaved w).storeless := by
  unfold sessionSaved
  split
  · rfl
  · exact (World.storeless_persist w (by decide) _).symm

@[simp] theorem instanceSaved_storeless :
    id.instanceSaved w.storeless = (id.instanceSaved w).storeless := by
  unfold instanceSaved
  split
  · rfl
  · exact (World.storeless_persist w (by decide) _).symm

end Identity

namespace Site

variable (s : Site)

@[simp] theorem rotate_storeless : s.storeless.rotate = s.rotate.storeless :=
  congrArg (Site.mk · _) (Identity.sessionSaved_storeless _ s.world.mintSession.2)

@[simp] theorem dropInstance_storeless : s.storeless.dropInstance = s.dropInstance.storeless :=
  congrArg (Site.mk · _) (Identity.instanceSaved_storeless _ s.world)

@[simp] theorem setInstanceIf_storeless (session : SessionId) (inst : Instance) :
    s.storeless.setInstanceIf session inst =
      ((s.setInstanceIf session inst).1, (s.setInstanceIf session inst).2.storeless) := by
  unfold setInstanceIf
  simp only [storeless_identity, storeless_world, Identity.instanceSaved_storeless]
  split <;> rfl

@[simp] theorem clearInstanceIf_storeless (name : InstanceId) :
    s.storeless.clearInstanceIf name =
      ((s.clearInstanceIf name).1, (s.clearInstanceIf name).2.storeless) := by
  unfold clearInstanceIf
  simp only [storeless_identity, dropInstance_storeless]
  split
  · split <;> rfl
  · rfl

@[simp] theorem clearInstance_storeless :
    s.storeless.clearInstance = s.clearInstance.storeless := by
  unfold clearInstance
  simp only [storeless_identity, dropInstance_storeless]
  split <;> rfl

end Site

/-! ### Transactions -/

namespace Transaction

/-- The outcome of a step at a site without its store. -/
def Outcome.storeless (o : Outcome) : Outcome := (o.1.storeless, o.2)

variable (b : Blueprint) (n : Nat) (request : Request) (client : Client) (target : Ensured)
  (s : Site)

theorem failWrite_storeless (failure : Failure) :
    failWrite target failure s.storeless = (failWrite target failure s).storeless := by
  unfold failWrite finish
  rw [Site.clearInstanceIf_storeless]
  rfl

theorem beginClearing_storeless (written : Nat) :
    beginClearing n request target written s.storeless =
      (beginClearing n request target written s).storeless := by
  unfold beginClearing World.askLogs
  simp only [Site.storeless_world, World.ask_storeless]
  split <;> rfl

theorem beginWriting_storeless :
    beginWriting b n request target s.storeless =
      (beginWriting b n request target s).storeless := by
  have hproject : s.storeless.world.project = s.world.project := rfl
  unfold beginWriting warnOfDropped
  simp only [hproject]
  generalize Selection.select b.policy request.files target.fresh s.world.project = selection
  rw [s.warnEach_storeless (by decide), Site.countWith_storeless]
  simp only [World.askWrite, Site.storeless_world, World.ask_storeless, beginClearing_storeless]
  split <;> rfl

theorem beginCreating_storeless :
    beginCreating b n client s.storeless = (beginCreating b n client s).storeless := by
  have hnonce : s.storeless.world.mintNonce =
      (s.world.mintNonce.1, s.world.mintNonce.2.storeless) := rfl
  have htime : s.world.mintNonce.2.storeless.unixSeconds = s.world.mintNonce.2.unixSeconds := rfl
  unfold beginCreating World.askCreate
  simp only [hnonce, htime, World.ask_storeless]
  split <;> rfl

theorem begin_storeless : begin b n request s.storeless = (begin b n request s).storeless := by
  unfold begin World.askStatus
  simp only [Site.connect_storeless, Site.storeless_identity, Site.storeless_world,
    World.ask_storeless, beginCreating_storeless]
  split <;> rfl

theorem checked_storeless (known : Instance) (result : Except Fault ControlPlane.InstanceStatus) :
    checked b n request client known result s.storeless =
      (checked b n request client known result s).storeless := by
  unfold checked
  split
  · split
    · exact beginWriting_storeless ..
    · exact beginCreating_storeless ..
  · rw [s.warn_storeless (by decide)]
    exact beginCreating_storeless ..

theorem created_storeless (result : Except Fault ControlPlane.CreateResponse) :
    created b n request client result s.storeless =
      (created b n request client result s).storeless := by
  unfold created
  split
  · rfl
  · split
    · rfl
    · simp only [Site.setInstanceIf_storeless]
      split
      · exact beginWriting_storeless ..
      · rw [Site.warn_storeless _ (by decide)]
        exact beginWriting_storeless ..

theorem wrote_storeless (files : List File) (result : Except Fault ControlPlane.WriteResponse) :
    wrote n request target files result s.storeless =
      (wrote n request target files result s).storeless := by
  unfold wrote
  split
  · exact failWrite_storeless ..
  · rw [s.warnEach_storeless (by decide)]
    simp only
    split
    · exact failWrite_storeless ..
    · exact beginClearing_storeless ..

theorem readLogs_storeless (written : Nat) (result : Except Fault ControlPlane.InstanceLogs) :
    readLogs n target written result s.storeless =
      (readLogs n target written result s).storeless := by
  unfold readLogs World.askClear
  rw [s.warn_storeless (by decide)]
  split <;> simp only [Site.storeless_world, World.ask_storeless] <;> rfl

theorem clearedErrors_storeless (written : Nat)
    (result : Except Fault ControlPlane.ClearResponse) :
    clearedErrors target written result s.storeless =
      (clearedErrors target written result s).storeless := by
  unfold clearedErrors
  rw [s.warn_storeless (by decide)]
  split <;> rfl

theorem step_storeless (first : Bool) (t : Transaction) :
    step b n first t s.storeless = (step b n first t s).map Outcome.storeless := by
  unfold step
  simp only [Site.storeless_world, World.storeless_now, begin_storeless, checked_storeless,
    created_storeless, wrote_storeless, readLogs_storeless, clearedErrors_storeless]
  repeat' split
  all_goals rfl

end Transaction

/-! ### Watches -/

namespace Monitor

/-- The outcome of a step at a site without its store. -/
def Outcome.storeless (o : Outcome) : Outcome := (o.1.storeless, o.2)

variable (hs : Healers) (n : Nat) (w : Watch) (s : Site) (m : Monitor)

theorem tick_storeless (due : Nat) (unhealthy : UInt32) :
    tick n w due unhealthy s.storeless m = (tick n w due unhealthy s m).storeless := by
  unfold tick World.askStatus
  simp only [Site.connect_storeless, Site.storeless_world, World.ask_storeless]
  rfl

theorem trigger_storeless : trigger n w s.storeless m = (trigger n w s m).storeless := by
  unfold trigger World.count
  rw [s.warn_storeless (by decide), Site.countWith_storeless]
  simp only [Site.emit_storeless]
  split <;> rfl

theorem answered_storeless (next : Nat) (unhealthy : UInt32)
    (result : Except Fault ControlPlane.InstanceStatus) :
    answered hs n w next unhealthy result s.storeless m =
      (answered hs n w next unhealthy result s m).storeless := by
  unfold answered
  rw [s.warn_storeless (by decide), s.warn_storeless (by decide), trigger_storeless]
  repeat' split
  all_goals rfl

theorem step_storeless : step hs n s.storeless m = (step hs n s m).map Outcome.storeless := by
  unfold step
  simp only [Site.storeless_world, World.storeless_now, tick_storeless, answered_storeless]
  repeat' split
  all_goals rfl

end Monitor

/-! ### Orchestrators -/

namespace State

/-- The state without its store. -/
def storeless (s : State) : State := { s with toSite := s.toSite.storeless }

variable (s : State) (n : Nat)

@[simp] theorem storeless_self : s.storeless.self = s.self := rfl

@[simp] theorem storeless_world : s.storeless.world = s.world.storeless := rfl

@[simp] theorem storeless_identity : s.storeless.identity = s.identity := rfl

@[simp] theorem mapSelf_storeless (f : Orchestrator → Orchestrator) :
    s.storeless.mapSelf f = (s.mapSelf f).storeless := rfl

@[simp] theorem count_storeless (c : Counter) : s.storeless.count c = (s.count c).storeless := rfl

@[simp] theorem countWith_storeless (f : Metrics → Metrics) :
    s.storeless.countWith f = (s.countWith f).storeless := rfl

theorem warn_storeless {text : String} (other : (Happening.warning text).isComplaint = false) :
    s.storeless.warn text = (s.warn text).storeless :=
  congrArg (State.mk · s.self) (s.toSite.warn_storeless other)

@[simp] theorem emit_storeless (e : Event) : s.storeless.emit e = (s.emit e).storeless :=
  congrArg (State.mk · s.self) (s.toSite.emit_storeless e)

@[simp] theorem wake_storeless (t : Task) : s.storeless.wake t = (s.wake t).storeless :=
  congrArg (fun w => State.mk ⟨w, s.identity⟩ s.self) (s.world.wake_storeless s.self.number t)

@[simp] theorem wakeAll_storeless (ts : List Task) :
    s.storeless.wakeAll ts = (s.wakeAll ts).storeless :=
  List.foldl_hom State.storeless wake_storeless

@[simp] theorem close_storeless : s.storeless.close = s.close.storeless := by
  simp [close]

@[simp] theorem letGo_storeless : s.storeless.letGo = s.letGo.storeless := by
  unfold letGo
  rw [storeless_self]
  split
  · rw [close_storeless, mapSelf_storeless]
  · rfl

@[simp] theorem endLoop_storeless (outcome : Option Outcome) :
    s.storeless.endLoop n outcome = (s.endLoop n outcome).storeless := by
  simp [endLoop]

@[simp] theorem enqueue_storeless (request : Request) :
    s.storeless.enqueue request = (s.enqueue request).storeless := by
  simp [enqueue]

@[simp] theorem beginAttempt_storeless (l : Loop) (attempt : UInt32) :
    s.storeless.beginAttempt n l attempt = (s.beginAttempt n l attempt).storeless := by
  unfold beginAttempt
  split
  · exact s.endLoop_storeless n none
  · exact enqueue_storeless (mapSelf _ (s.count .attempt)) l.request

@[simp] theorem rotateFor_storeless (reason : String) :
    s.storeless.rotateFor reason = (s.rotateFor reason).storeless := by
  have hrotate : s.storeless.mapSite Site.rotate = (s.mapSite Site.rotate).storeless :=
    congrArg (State.mk · s.self) s.toSite.rotate_storeless
  unfold rotateFor
  rw [hrotate]
  exact emit_storeless ((s.mapSite Site.rotate).count .rotated) _

@[simp] theorem failAttempt_storeless (l : Loop) (attempt : UInt32) (session : SessionId)
    (f : Failure) :
    s.storeless.failAttempt n l attempt session f =
      (s.failAttempt n l attempt session f).storeless := by
  have hclear (s : State) :
      s.storeless.mapSite Site.clearInstance = (s.mapSite Site.clearInstance).storeless :=
    congrArg (State.mk · s.self) s.toSite.clearInstance_storeless
  unfold failAttempt
  simp only [storeless_self, count_storeless, rotateFor_storeless, hclear]
  split <;> simp

@[simp] theorem arm_storeless (inst : InstanceId) :
    s.storeless.arm inst = (s.arm inst).storeless := by
  simp [arm]

@[simp] theorem complete_storeless (l : Loop) (attempt : UInt32) (e : Execution) :
    s.storeless.complete n l attempt e = (s.complete n l attempt e).storeless := by
  simp [complete]

theorem beginSetup_storeless (task : Task) (client : Client) (inst : InstanceId) :
    s.storeless.beginSetup task client inst =
      ((s.beginSetup task client inst).1, (s.beginSetup task client inst).2.storeless) := by
  unfold beginSetup World.askCommands
  cases h : s.self.setup.isEmpty with
  | true =>
      simp [h]
  | false =>
      simp [h]
      rfl

@[simp] theorem succeed_storeless (l : Loop) (attempt : UInt32) (e : Execution) :
    s.storeless.succeed n l attempt e = (s.succeed n l attempt e).storeless := by
  have harm : armFor e s.storeless = (armFor e s).storeless := by
    unfold armFor
    rw [storeless_self, arm_storeless]
    split <;> rfl
  rw [succeed_eq, succeed_eq, harm, beginSetup_storeless]
  obtain ⟨reply, s⟩ := (armFor e s).beginSetup (.loop n) e.client e.inst.id
  cases reply with
  | none => exact s.complete_storeless n l attempt e
  | some reply => rfl

theorem reportSetup_storeless (result : Except Fault ControlPlane.CommandsResponse) (w : World) :
    reportSetup result w.storeless = (reportSetup result w).storeless := by
  have each (rs : List ControlPlane.CommandResult) :
      rs.foldl (fun w _ => w.warn "setup command failed") w.storeless =
        (rs.foldl (fun w _ => w.warn "setup command failed") w).storeless :=
    List.foldl_hom World.storeless fun w _ => w.warn_storeless (by decide)
  unfold reportSetup
  split
  · exact w.warn_storeless (by decide)
  · rw [each]
    simp only
    split
    · rfl
    · exact World.warn_storeless _ (by decide)

theorem stepLoop_storeless : s.storeless.stepLoop n = (s.stepLoop n).map storeless := by
  have hresult (k deadline : Nat) :
      s.storeless.attemptResult? k deadline = s.attemptResult? k deadline := rfl
  have hreport (result : Except Fault ControlPlane.CommandsResponse) :
      s.storeless.mapWorld (reportSetup result) = (s.mapWorld (reportSetup result)).storeless :=
    congrArg (fun w => State.mk ⟨w, s.identity⟩ s.self) (reportSetup_storeless result s.world)
  unfold stepLoop
  simp only [storeless_self, storeless_world, World.storeless_now, hresult, hreport,
    beginAttempt_storeless, succeed_storeless, failAttempt_storeless, endLoop_storeless,
    mapSelf_storeless, complete_storeless]
  repeat' split
  all_goals simp only [*, if_true, if_false, Option.map_some, Option.map_none]

theorem stepTransaction_storeless :
    s.storeless.stepTransaction n = (s.stepTransaction n).map storeless := by
  have hturn (s : State) : s.storeless.endTurn n = (s.endTurn n).storeless := by simp [endTurn]
  have hstep (first : Bool) (t : Transaction) :
      t.step s.self.blueprint n first s.storeless.toSite =
        (t.step s.self.blueprint n first s.toSite).map Transaction.Outcome.storeless :=
    Transaction.step_storeless ..
  unfold stepTransaction
  rw [storeless_self]
  cases s.self.transactions[n]? with
  | none => rfl
  | some t =>
      simp only [hstep]
      cases t.step s.self.blueprint n (s.self.line.head? = some n) s.toSite with
      | none => rfl
      | some r =>
          obtain ⟨site, stage⟩ := r
          simp only [Option.map_some, Transaction.Outcome.storeless]
          split
          · exact congrArg some (hturn (mapSelf _ ⟨site, s.self⟩))
          · rfl

@[simp] theorem answer_storeless (c : Caller) (outcome : Option Outcome) :
    s.storeless.answer n c outcome = (s.answer n c outcome).storeless := by
  unfold answer
  simp only [storeless_world, World.storeless_now, mapSelf_storeless]
  rw [warn_storeless _ (by decide)]
  split <;> exact letGo_storeless _

@[simp] theorem leaveLoop_storeless (loop : Nat) (starter : Bool) :
    s.storeless.leaveLoop loop starter = (s.leaveLoop loop starter).storeless := by
  unfold leaveLoop
  split <;> rfl

@[simp] theorem cancelLoop_storeless : s.storeless.cancelLoop n = (s.cancelLoop n).storeless := by
  unfold cancelLoop
  simp only [storeless_self, mapSelf_storeless, wake_storeless]
  split <;> rfl

@[simp] theorem supersede_storeless (deployment : DeploymentId) :
    s.storeless.supersede deployment = (s.supersede deployment).storeless := by
  unfold supersede
  simp only [storeless_self, cancelLoop_storeless, emit_storeless]
  split <;> rfl

@[simp] theorem startLoop_storeless (request : Request) :
    s.storeless.startLoop request = (s.startLoop request).storeless := by
  have hmint : s.storeless.world.mintDeployment =
      (s.world.mintDeployment.1, s.world.mintDeployment.2.storeless) := rfl
  unfold startLoop
  rw [hmint]
  obtain ⟨deployment, w⟩ := s.world.mintDeployment
  have hminted : (⟨⟨w.storeless, s.identity⟩, s.self⟩ : State) =
      storeless ⟨⟨w, s.identity⟩, s.self⟩ := rfl
  simp [hminted]

@[simp] theorem await_storeless (loop : Nat) (starter : Bool) :
    s.storeless.await n loop starter = (s.await n loop starter).storeless := rfl

@[simp] theorem enter_storeless (c : Caller) : s.storeless.enter n c = (s.enter n c).storeless := by
  unfold enter
  simp only [storeless_self, answer_storeless, startLoop_storeless, count_storeless,
    await_storeless]
  repeat' split
  all_goals rfl

@[simp] theorem giveUp_storeless (since : Nat) (deployment : DeploymentId) :
    s.storeless.giveUp since deployment = (s.giveUp since deployment).storeless := by
  simp [giveUp]

theorem stepCaller_storeless : s.storeless.stepCaller n = (s.stepCaller n).map storeless := by
  unfold stepCaller
  simp only [storeless_self, storeless_world, World.storeless_now, enter_storeless,
    leaveLoop_storeless, giveUp_storeless, answer_storeless]
  repeat' split
  all_goals rfl

theorem heal_storeless : s.storeless.heal = s.heal.storeless := by
  have hnote : s.storeless.mapWorld (·.note .healed) = (s.mapWorld (·.note .healed)).storeless :=
    congrArg (fun w => State.mk ⟨w, s.identity⟩ s.self) (s.world.note_storeless rfl)
  unfold heal
  rw [hnote]
  simp only [storeless_self]
  split
  · exact wake_storeless (s.addCaller .allFiles true) _
  · rfl
  · rfl

theorem stepWatch_storeless : s.storeless.stepWatch n = (s.stepWatch n).map storeless := by
  have hstep : s.self.monitor.step s.self.healers n s.storeless.toSite =
      (s.self.monitor.step s.self.healers n s.toSite).map Monitor.Outcome.storeless :=
    Monitor.step_storeless ..
  unfold stepWatch
  rw [storeless_self, hstep]
  cases s.self.monitor.step s.self.healers n s.toSite with
  | none => rfl
  | some r =>
      obtain ⟨site, monitor, heals⟩ := r
      simp only [Option.map_some, Monitor.Outcome.storeless]
      split
      · exact congrArg some (heal_storeless ⟨site, { s.self with monitor }⟩)
      · rfl

theorem shutdown_storeless : s.storeless.shutdown = s.shutdown.storeless := by
  unfold shutdown
  simp only [storeless_self, close_storeless]
  split <;> rfl

theorem abandon_storeless : s.storeless.abandon n = (s.abandon n).storeless := by
  unfold abandon
  simp only [storeless_self, mapSelf_storeless, leaveLoop_storeless, letGo_storeless]
  repeat' split
  all_goals rfl

/-! ### Runs -/

/-- Whatever is done, the same is done without the store. -/
theorem perform_storeless (a : Action) : s.storeless.perform a = (s.perform a).map storeless := by
  cases a with
  | step t =>
      cases t with
      | transaction n => exact s.stepTransaction_storeless n
      | loop n => exact s.stepLoop_storeless n
      | caller n => exact s.stepCaller_storeless n
      | watch n => exact s.stepWatch_storeless n
      | direct => rfl
  | call request =>
      unfold perform
      rw [storeless_self]
      cases s.self.held <;> rfl
  | abandon n => exact congrArg some (s.abandon_storeless n)
  | shutdown => exact congrArg some s.shutdown_storeless
  | release => exact congrArg some (letGo_storeless ⟨s.toSite, { s.self with held := false }⟩)
  | _ => rfl

theorem follow_storeless (actions : List Action) :
    s.storeless.follow actions = (s.follow actions).map storeless := by
  induction actions generalizing s with
  | nil => rfl
  | cons a actions ih =>
      rw [follow, follow, perform_storeless]
      cases s.perform a with
      | none => rfl
      | some t => exact ih t

end State

/-! ### Two runs -/

namespace World

/-- The calls that were made and when, the first one first. -/
def timedCalls (w : World) : List (Nat × Task × Client × ControlPlane.Request) :=
  w.log.reverse.filterMap fun
    | (time, .call task client request) => some (time, task, client, request)
    | _ => none

/-- The events that were emitted and when, the first one first. -/
def timedEvents (w : World) : List (Nat × Event) :=
  w.log.reverse.filterMap fun
    | (time, .event e) => some (time, e)
    | _ => none

/-- What is no complaint can be seen in the rest of the log. -/
theorem filterMap_otherLog {α : Type} {f : Nat × Happening → Option α}
    (hf : ∀ e, e.2.isComplaint = true → f e = none) (w : World) :
    w.otherLog.reverse.filterMap f = w.log.reverse.filterMap f := by
  rw [otherLog, ← List.filter_reverse, List.filterMap_filter]
  congr
  funext e
  cases h : e.2.isComplaint with
  | true => simp [hf e h]
  | false => rfl

theorem timedCalls_storeless (w : World) : w.storeless.timedCalls = w.timedCalls :=
  filterMap_otherLog (fun | (_, .warning _), _ => rfl) w

theorem timedEvents_storeless (w : World) : w.storeless.timedEvents = w.timedEvents :=
  filterMap_otherLog (fun | (_, .warning _), _ => rfl) w

end World

namespace State

/-- The state before other writes to the store fail. -/
def withOutages (outages : List Bool) (s : State) : State :=
  s.mapWorld fun w => { w with outages }

/-- Two states of which only the store and the complaints about it may differ. -/
structure Alike (s t : State) : Prop where
  calls : s.world.timedCalls = t.world.timedCalls
  events : s.world.timedEvents = t.world.timedEvents
  metrics : s.world.metrics = t.world.metrics
  answers : s.self.callers.map (·.answer?) = t.self.callers.map (·.answer?)
  /-- The same session and instance are known. -/
  identity : s.identity = t.identity
  /-- All tasks have come equally far. -/
  self : s.self = t.self
  /-- The same tasks are woken, in the same order. -/
  woken : s.world.woken = t.world.woken
  log : s.world.otherLog = t.world.otherLog

theorem Alike.of_storeless {s t : State} (h : s.storeless = t.storeless) : s.Alike t := by
  have hworld : s.world.storeless = t.world.storeless := congrArg (·.world) h
  have hself : s.self = t.self := congrArg (·.self) h
  refine ⟨?_, ?_, congrArg (·.metrics) hworld, by rw [hself], congrArg (·.identity) h, hself,
    congrArg (·.woken) hworld, congrArg (·.log) hworld⟩
  · rw [← World.timedCalls_storeless, hworld, World.timedCalls_storeless]
  · rw [← World.timedEvents_storeless, hworld, World.timedEvents_storeless]

/-- Failures of the store are never fatal: whichever writes to the store fail after an orchestrator
was made for a project, the same actions are possible, and they lead to states of which only the
store and the complaints about it differ. -/
theorem alike_of_outages (number : Nat) (project : String) (config : Config)
    (blueprint : Blueprint) (setup : List String) (w : World) (outages outages' : List Bool)
    (actions : List Action) :
    let s := start number (some project) config blueprint setup w
    Option.Rel Alike ((s.withOutages outages).follow actions)
      ((s.withOutages outages').follow actions) := by
  intro s
  have hruns : ((s.withOutages outages).follow actions).map storeless =
      ((s.withOutages outages').follow actions).map storeless := by
    rw [← follow_storeless, ← follow_storeless]
    rfl
  cases ht : (s.withOutages outages).follow actions with
  | none =>
      rw [ht, Option.map_none, eq_comm, Option.map_eq_none_iff] at hruns
      rw [hruns]
      exact .none
  | some t =>
      rw [ht, Option.map_some, eq_comm, Option.map_eq_some_iff] at hruns
      obtain ⟨t', ht', h⟩ := hruns
      rw [ht']
      exact .some (.of_storeless h.symm)

/-- The store is what differs: here the start of a deployment is stored, or is not. -/
example :
    let s := start 0 (some "demo") {} {} [] { store := some {} }
    let stored (outages : List Bool) : Option (Option Nat) :=
      ((s.withOutages outages).follow [.call .allFiles, .step (.caller 0)]).map fun t =>
        t.world.store.map (·.tables.deployments.length)
    stored [] = some (some 1) ∧ stored [true] = some (some 0) := by
  decide +kernel

end State

end PreviewDeploy
