import PreviewDeploy.Orchestrator.Step

/-!
# What operations leave alone

Proofs about an orchestrator look at its world through four things: the clock, the files of the
project, the calls to the control plane and the events.  Here is said what each operation of a
world and of a site does to these and to the identity; most leave nearly all of them alone.
-/

namespace PreviewDeploy

/-! ### Worlds -/

namespace World

variable (w : World)

@[simp] theorem note_frame (h : Happening) :
    (w.note h).now = w.now ∧ (w.note h).project = w.project := ⟨rfl, rfl⟩

theorem calls_note (h : Happening) :
    (w.note h).calls = w.calls ++ (match h with
      | .call task client request => [(task, client, request)]
      | _ => []) := by
  cases h <;> simp [calls, note]

theorem events_note (h : Happening) :
    (w.note h).events = w.events ++ (match h with
      | .event e => [e]
      | _ => []) := by
  cases h <;> simp [events, note]

@[simp] theorem warn_frame (text : String) :
    (w.warn text).now = w.now ∧ (w.warn text).project = w.project ∧
      (w.warn text).calls = w.calls ∧ (w.warn text).events = w.events := by
  simp [warn, calls_note, events_note]

@[simp] theorem wake_frame (number : Nat) (t : Task) :
    (w.wake number t).now = w.now ∧ (w.wake number t).project = w.project ∧
      (w.wake number t).calls = w.calls ∧ (w.wake number t).events = w.events := by
  unfold wake
  split <;> simp [calls, events]

@[simp] theorem countWith_frame (f : Metrics → Metrics) :
    (w.countWith f).now = w.now ∧ (w.countWith f).project = w.project ∧
      (w.countWith f).calls = w.calls ∧ (w.countWith f).events = w.events :=
  ⟨rfl, rfl, rfl, rfl⟩

@[simp] theorem count_frame (c : Counter) :
    (w.count c).now = w.now ∧ (w.count c).project = w.project ∧
      (w.count c).calls = w.calls ∧ (w.count c).events = w.events :=
  ⟨rfl, rfl, rfl, rfl⟩

@[simp] theorem persist_frame (complaint : String)
    (write : Store → Except Store.StoreError Store) :
    (w.persist complaint write).now = w.now ∧ (w.persist complaint write).project = w.project ∧
      (w.persist complaint write).calls = w.calls ∧
      (w.persist complaint write).events = w.events := by
  unfold persist
  cases w.store with
  | none => simp
  | some s =>
      simp only
      split
      · simp [calls, events]
      · simp only [warn_frame]
        simp [calls, events]

theorem epoch_persist (complaint : String) (write : Store → Except Store.StoreError Store) :
    (w.persist complaint write).epoch = w.epoch := by
  unfold persist
  cases w.store with
  | none => rfl
  | some s =>
      simp only
      split <;> rfl

@[simp] theorem journal_frame (project : Option String) (e : Event) :
    (w.journal project e).now = w.now ∧ (w.journal project e).project = w.project ∧
      (w.journal project e).calls = w.calls ∧ (w.journal project e).events = w.events := by
  unfold journal
  split <;> simp

@[simp] theorem logLine_frame (l : LogLine) :
    (w.logLine l).now = w.now ∧ (w.logLine l).project = w.project ∧
      (w.logLine l).calls = w.calls ∧ (w.logLine l).events = w.events := by
  unfold logLine
  split <;> simp

/-- To emit an event adds it to the events and does nothing else that counts here. -/
@[simp] theorem emit_frame (project : Option String) (e : Event) :
    (w.emit project e).now = w.now ∧ (w.emit project e).project = w.project ∧
      (w.emit project e).calls = w.calls ∧ (w.emit project e).events = w.events ++ [e] := by
  simp [emit, calls_note, events_note]

@[simp] theorem ask_frame {α : Type} (task : Task) (client : Client)
    (request : ControlPlane.Request)
    (take : ControlPlane.Script → ControlPlane.Reply α × ControlPlane.Script) :
    (w.ask task client request take).2.now = w.now ∧
      (w.ask task client request take).2.project = w.project ∧
      (w.ask task client request take).2.calls = w.calls ++ [(task, client, request)] ∧
      (w.ask task client request take).2.events = w.events := by
  simp [ask, calls_note, events_note]
  simp [calls, events]

@[simp] theorem mintSession_frame :
    w.mintSession.2.now = w.now ∧ w.mintSession.2.project = w.project ∧
      w.mintSession.2.calls = w.calls ∧ w.mintSession.2.events = w.events :=
  ⟨rfl, rfl, rfl, rfl⟩

@[simp] theorem mintDeployment_frame :
    w.mintDeployment.2.now = w.now ∧ w.mintDeployment.2.project = w.project ∧
      w.mintDeployment.2.calls = w.calls ∧ w.mintDeployment.2.events = w.events :=
  ⟨rfl, rfl, rfl, rfl⟩

@[simp] theorem mintNonce_frame :
    w.mintNonce.2.now = w.now ∧ w.mintNonce.2.project = w.project ∧
      w.mintNonce.2.calls = w.calls ∧ w.mintNonce.2.events = w.events :=
  ⟨rfl, rfl, rfl, rfl⟩

end World

/-! ### Sites -/

namespace Identity

variable (id : Identity) (w : World)

@[simp] theorem sessionSaved_frame :
    (id.sessionSaved w).now = w.now ∧ (id.sessionSaved w).project = w.project ∧
      (id.sessionSaved w).calls = w.calls ∧ (id.sessionSaved w).events = w.events := by
  unfold sessionSaved
  split <;> simp

@[simp] theorem instanceSaved_frame :
    (id.instanceSaved w).now = w.now ∧ (id.instanceSaved w).project = w.project ∧
      (id.instanceSaved w).calls = w.calls ∧ (id.instanceSaved w).events = w.events := by
  unfold instanceSaved
  split <;> simp

end Identity

namespace Site

variable (s : Site)

@[simp] theorem mapWorld_frame (f : World → World) :
    (s.mapWorld f).world = f s.world ∧ (s.mapWorld f).identity = s.identity := ⟨rfl, rfl⟩

@[simp] theorem emit_frame (e : Event) :
    (s.emit e).world = s.world.emit s.identity.project e ∧ (s.emit e).identity = s.identity :=
  ⟨rfl, rfl⟩

@[simp] theorem warn_frame (text : String) :
    (s.warn text).world = s.world.warn text ∧ (s.warn text).identity = s.identity := ⟨rfl, rfl⟩

@[simp] theorem connect_world :
    s.connect.2.world.now = s.world.now ∧ s.connect.2.world.project = s.world.project ∧
      s.connect.2.world.calls = s.world.calls ∧
      s.connect.2.world.events = s.world.events := by
  unfold connect
  split
  · simp
  · simp only [World.note_frame, World.calls_note, World.events_note, List.append_nil]
    simp [World.calls, World.events]

@[simp] theorem connect_identity :
    s.connect.2.identity = { s.identity with client := some s.connect.1 } := by
  unfold connect
  split
  · rename_i c hc
    rw [← hc]
  · rfl

@[simp] theorem rotate_world :
    s.rotate.world.now = s.world.now ∧ s.rotate.world.project = s.world.project ∧
      s.rotate.world.calls = s.world.calls ∧ s.rotate.world.events = s.world.events := by
  simp [rotate]

@[simp] theorem rotate_identity :
    s.rotate.identity =
      { s.identity with session := s.world.mintSession.1, client := none, inst := none } := rfl

/-- An instance is recorded only for the session that is still the current one. -/
theorem setInstanceIf_identity (session : SessionId) (inst : Instance) :
    (s.setInstanceIf session inst).2.identity =
      if s.identity.session.id = session then { s.identity with inst := some inst }
      else s.identity := by
  unfold setInstanceIf
  split <;> rfl

@[simp] theorem setInstanceIf_fst (session : SessionId) (inst : Instance) :
    (s.setInstanceIf session inst).1 = decide (s.identity.session.id = session) := by
  unfold setInstanceIf
  split <;> simp_all

@[simp] theorem setInstanceIf_world (session : SessionId) (inst : Instance) :
    (s.setInstanceIf session inst).2.world.now = s.world.now ∧
      (s.setInstanceIf session inst).2.world.project = s.world.project ∧
      (s.setInstanceIf session inst).2.world.calls = s.world.calls ∧
      (s.setInstanceIf session inst).2.world.events = s.world.events := by
  unfold setInstanceIf
  split <;> simp

@[simp] theorem dropInstance_identity :
    s.dropInstance.identity = { s.identity with inst := none } := rfl

@[simp] theorem dropInstance_world :
    s.dropInstance.world.now = s.world.now ∧ s.dropInstance.world.project = s.world.project ∧
      s.dropInstance.world.calls = s.world.calls ∧
      s.dropInstance.world.events = s.world.events := by
  simp [dropInstance]

/-- Only the named instance is forgotten. -/
theorem clearInstanceIf_identity (name : InstanceId) :
    (s.clearInstanceIf name).2.identity =
      { s.identity with inst := s.identity.inst.filter fun i => i.id ≠ name } := by
  unfold clearInstanceIf
  split
  · rename_i i hi
    by_cases h : i.id = name
    · simp [h, hi, Option.filter]
    · simp only [hi, Option.filter, ne_eq, h, not_false_eq_true, decide_true, if_true, if_false]
      rw [← hi]
  · rename_i hi
    simp [hi]
    rw [← hi]

@[simp] theorem clearInstanceIf_world (name : InstanceId) :
    (s.clearInstanceIf name).2.world.now = s.world.now ∧
      (s.clearInstanceIf name).2.world.project = s.world.project ∧
      (s.clearInstanceIf name).2.world.calls = s.world.calls ∧
      (s.clearInstanceIf name).2.world.events = s.world.events := by
  unfold clearInstanceIf
  repeat' split
  all_goals simp

@[simp] theorem clearInstance_identity :
    s.clearInstance.identity = { s.identity with inst := none } := by
  unfold clearInstance
  split
  · rfl
  · rename_i h
    have h : s.identity.inst = none := by simpa using h
    rw [← h]

@[simp] theorem clearInstance_world :
    s.clearInstance.world.now = s.world.now ∧ s.clearInstance.world.project = s.world.project ∧
      s.clearInstance.world.calls = s.world.calls ∧
      s.clearInstance.world.events = s.world.events := by
  unfold clearInstance
  split <;> simp

end Site

/-! ### Monitors -/

namespace Monitor

variable (m : Monitor) (n : Nat) (inst : InstanceId)

@[simp] theorem cancel_frame :
    (m.cancel n).armed = m.armed ∧ (m.cancel n).closed = m.closed ∧
      (m.cancel n).watches.length = m.watches.length := by
  simp [cancel]

@[simp] theorem disarm_frame :
    m.disarm.armed = none ∧ m.disarm.closed = m.closed ∧
      m.disarm.watches.length = m.watches.length := by
  unfold disarm
  split
  · simp
  · rename_i harmed
    simp [harmed]

@[simp] theorem arm_frame (now : Nat) :
    (m.arm inst now).armed = some m.watches.length ∧ (m.arm inst now).closed = m.closed := by
  simp [arm]

@[simp] theorem close_frame :
    m.close.armed = m.armed ∧ m.close.closed = true ∧
      m.close.watches.length = m.watches.length := by
  simp [close]

@[simp] theorem setStage_frame (stage : WatchStage) :
    (m.setStage n stage).armed = m.armed ∧ (m.setStage n stage).closed = m.closed ∧
      (m.setStage n stage).watches.length = m.watches.length := by
  simp [setStage]

end Monitor

/-! ### States -/

namespace State

variable (s : State)

@[simp] theorem mapSite_frame (f : Site → Site) :
    (s.mapSite f).toSite = f s.toSite ∧ (s.mapSite f).self = s.self := ⟨rfl, rfl⟩

@[simp] theorem mapWorld_frame (f : World → World) :
    (s.mapWorld f).world = f s.world ∧ (s.mapWorld f).identity = s.identity ∧
      (s.mapWorld f).self = s.self := ⟨rfl, rfl, rfl⟩

@[simp] theorem mapSelf_frame (f : Orchestrator → Orchestrator) :
    (s.mapSelf f).toSite = s.toSite ∧ (s.mapSelf f).self = f s.self := ⟨rfl, rfl⟩

@[simp] theorem emit_frame (e : Event) :
    (s.emit e).world = s.world.emit s.identity.project e ∧ (s.emit e).identity = s.identity ∧
      (s.emit e).self = s.self := ⟨rfl, rfl, rfl⟩

@[simp] theorem warn_frame (text : String) :
    (s.warn text).world = s.world.warn text ∧ (s.warn text).identity = s.identity ∧
      (s.warn text).self = s.self := ⟨rfl, rfl, rfl⟩

@[simp] theorem countWith_frame (f : Metrics → Metrics) :
    (s.countWith f).world = s.world.countWith f ∧ (s.countWith f).identity = s.identity ∧
      (s.countWith f).self = s.self := ⟨rfl, rfl, rfl⟩

@[simp] theorem count_frame (c : Counter) :
    (s.count c).world = s.world.count c ∧ (s.count c).identity = s.identity ∧
      (s.count c).self = s.self := ⟨rfl, rfl, rfl⟩

@[simp] theorem wake_frame (t : Task) :
    (s.wake t).world = s.world.wake s.self.number t ∧ (s.wake t).identity = s.identity ∧
      (s.wake t).self = s.self := ⟨rfl, rfl, rfl⟩

@[simp] theorem wakeAll_frame (ts : List Task) :
    (s.wakeAll ts).identity = s.identity ∧ (s.wakeAll ts).self = s.self ∧
      (s.wakeAll ts).world.now = s.world.now ∧
      (s.wakeAll ts).world.project = s.world.project ∧
      (s.wakeAll ts).world.calls = s.world.calls ∧
      (s.wakeAll ts).world.events = s.world.events := by
  induction ts generalizing s with
  | nil => simp [wakeAll]
  | cons t ts ih =>
      have h := ih (s.wake t)
      simpa [wakeAll] using h

end State

end PreviewDeploy
