import PreviewDeploy.Proofs.StepCases
import PreviewDeploy.Proofs.StoredStates

/-!
# The stored identity

If the store takes all writes, what it holds of the project of an orchestrator agrees with the
identity of the orchestrator all the time: each operation that changes the known instance stores
the change at once (`State.Mirrored.perform`).  Whether the row of a project can be read is
followed as well, as long as the session is not replaced.
-/

namespace PreviewDeploy

/-! ### Sites -/

namespace Identity

variable (id : Identity) {p : String} {r : Bool} {i : Option Instance} {w : World}

/-- With a new session nothing but that no instance is known is stored. -/
theorem backs_sessionSaved (works : ∀ fails ∈ w.outages, fails = false)
    (project : id.project = some p) : (id.sessionSaved w).Backs p false none := by
  unfold sessionSaved
  rw [project]
  obtain ⟨works, hstore⟩ := World.persist_of_works works "failed to persist session"
    fun s => .ok (s.saveSession p id.session w.time)
  refine ⟨works, ?_, nofun⟩
  intro x hx
  unfold World.state? at hx
  rw [hstore] at hx
  cases hs : w.store with
  | none => simp [hs] at hx
  | some s =>
      rw [hs] at hx
      exact Store.inst_of_saveSession hx

/-- The known instance is stored in place of the one before. -/
theorem backs_instanceSaved (h : w.Backs p r i) (project : id.project = some p) :
    (id.instanceSaved w).Backs p r id.inst := by
  unfold instanceSaved
  rw [project]
  obtain ⟨works, hstore⟩ := World.persist_of_works h.works "failed to persist instance"
    fun s => s.saveInstance p id.inst w.time
  have there := h.there
  unfold World.state? at there
  refine ⟨works, ?_, ?_⟩
  · intro x hx
    unfold World.state? at hx
    rw [hstore] at hx
    cases hs : w.store with
    | none => simp [hs] at hx
    | some s =>
        rw [hs] at hx
        exact Store.inst_of_saveInstance hx
  · intro hr
    unfold World.state?
    rw [hstore]
    cases hs : w.store with
    | none =>
        rw [hs] at there
        exact there hr
    | some s =>
        rw [hs] at there
        exact Store.isSome_saveInstance (there hr)

end Identity

/-- What the store holds of the project agrees with the identity; `readable` says that it holds
something. -/
structure Site.Mirrored (p : String) (readable : Bool) (s : Site) : Prop where
  named : s.identity.project = some p
  backed : s.world.Backs p readable s.identity.inst

namespace Site.Mirrored

variable {p : String} {r : Bool} {s : Site}

theorem congr {s' : Site} (h : s.Mirrored p r) (identity : s'.identity = s.identity)
    (world : s'.world.Backs p r s.identity.inst ↔ s.world.Backs p r s.identity.inst) :
    s'.Mirrored p r :=
  ⟨identity ▸ h.named, by rw [identity]; exact world.mpr h.backed⟩

theorem forget (h : s.Mirrored p r) : s.Mirrored p false :=
  ⟨h.named, h.backed.works, h.backed.agrees, nofun⟩

theorem warn (h : s.Mirrored p r) (text : String) : (s.warn text).Mirrored p r :=
  h.congr rfl (by simp)

theorem emit (h : s.Mirrored p r) (e : Event) : (s.emit e).Mirrored p r :=
  ⟨h.named, h.backed.emit ..⟩

theorem connect (h : s.Mirrored p r) : s.connect.2.Mirrored p r := by
  unfold Site.connect
  split
  · exact h
  · exact ⟨h.named, by simpa using h.backed⟩

theorem rotate (h : s.Mirrored p r) : s.rotate.Mirrored p false :=
  ⟨h.named, Identity.backs_sessionSaved _ h.backed.works h.named⟩

theorem setInstanceIf (h : s.Mirrored p r) (session : SessionId) (inst : Instance) :
    (s.setInstanceIf session inst).2.Mirrored p r := by
  unfold Site.setInstanceIf
  split
  · exact ⟨h.named, Identity.backs_instanceSaved _ h.backed h.named⟩
  · exact h

theorem dropInstance (h : s.Mirrored p r) : s.dropInstance.Mirrored p r :=
  ⟨h.named, Identity.backs_instanceSaved _ h.backed h.named⟩

theorem clearInstanceIf (h : s.Mirrored p r) (name : InstanceId) :
    (s.clearInstanceIf name).2.Mirrored p r := by
  unfold Site.clearInstanceIf
  split
  · split
    · exact h.dropInstance
    · exact h
  · exact h

theorem clearInstance (h : s.Mirrored p r) : s.clearInstance.Mirrored p r := by
  unfold Site.clearInstance
  split
  · exact h.dropInstance
  · exact h

theorem ask (h : s.Mirrored p r) {α : Type} (task : Task) (client : Client)
    (request : ControlPlane.Request)
    (take : ControlPlane.Script → ControlPlane.Reply α × ControlPlane.Script) :
    ({ s with world := (s.world.ask task client request take).2 } : Site).Mirrored p r :=
  h.congr rfl (World.backs_ask ..)

theorem mapCount (h : s.Mirrored p r) (f : Metrics → Metrics) :
    (s.mapWorld (·.countWith f)).Mirrored p r :=
  h.congr rfl (World.backs_countWith f)

theorem warnEach {α : Type} (h : s.Mirrored p r) (text : String) (xs : List α) :
    (xs.foldl (fun s _ => s.warn text) s).Mirrored p r := by
  induction xs generalizing s with
  | nil => exact h
  | cons x xs ih => exact ih (h.warn text)

end Site.Mirrored

/-! ### Transactions -/

namespace Transaction

variable {p : String} {r : Bool} {s : Site} (b : Blueprint) (n : Nat) (request : Request)
  (client : Client) (target : Ensured)

theorem mirrored_failWrite (h : s.Mirrored p r) (failure : Failure) :
    (failWrite target failure s).1.Mirrored p r :=
  h.clearInstanceIf target.inst.id

theorem mirrored_beginClearing (h : s.Mirrored p r) (written : Nat) :
    (beginClearing n request target written s).1.Mirrored p r := by
  unfold beginClearing
  split
  · exact h.ask ..
  · exact h

theorem mirrored_beginWriting (h : s.Mirrored p r) :
    (beginWriting b n request target s).1.Mirrored p r := by
  have hw := (h.warnEach "policy violation: skipping write to read-only path"
    (Selection.select b.policy request.files target.fresh s.world.project).dropped).mapCount
      (·.drop (Selection.select b.policy request.files target.fresh
        s.world.project).dropped.length)
  simp only [beginWriting]
  split
  · exact mirrored_beginClearing n request target hw 0
  · exact hw.ask ..

theorem mirrored_beginCreating (h : s.Mirrored p r) :
    (beginCreating b n client s).1.Mirrored p r := by
  have hw : ({ s with world := s.world.mintNonce.2 } : Site).Mirrored p r :=
    h.congr rfl World.backs_mintNonce
  simp only [beginCreating]
  split
  · exact hw
  · exact hw.ask ..

theorem mirrored_begin (h : s.Mirrored p r) : (begin b n request s).1.Mirrored p r := by
  simp only [begin]
  split
  · exact h.connect.ask ..
  · exact mirrored_beginCreating b n _ h.connect

theorem mirrored_checked (h : s.Mirrored p r) (known : Instance)
    (result : Except ControlPlane.Fault ControlPlane.InstanceStatus) :
    (checked b n request client known result s).1.Mirrored p r := by
  unfold checked
  split
  · split
    · exact mirrored_beginWriting b n request _ h
    · exact mirrored_beginCreating b n client h
  · exact mirrored_beginCreating b n client (h.warn _)

theorem mirrored_created (h : s.Mirrored p r)
    (result : Except ControlPlane.Fault ControlPlane.CreateResponse) :
    (created b n request client result s).1.Mirrored p r := by
  unfold created
  split
  · exact h
  · split
    · exact h
    · rename_i inst hinst
      have hset := h.setInstanceIf client.session inst
      refine mirrored_beginWriting b n request _ ?_
      split
      · exact hset
      · exact hset.warn _

theorem mirrored_wrote (h : s.Mirrored p r) (files : List File)
    (result : Except ControlPlane.Fault ControlPlane.WriteResponse) :
    (wrote n request target files result s).1.Mirrored p r := by
  unfold wrote
  split
  · exact mirrored_failWrite target h _
  · rename_i response
    have hw := h.warnEach "file write failed" response.failed
    simp only
    split
    · exact mirrored_failWrite target hw _
    · exact mirrored_beginClearing n request target hw _

theorem mirrored_readLogs (h : s.Mirrored p r) (written : Nat)
    (result : Except ControlPlane.Fault ControlPlane.InstanceLogs) :
    (readLogs n target written result s).1.Mirrored p r := by
  simp only [readLogs]
  refine Site.Mirrored.ask ?_ ..
  split
  · exact h
  · exact h.warn _

theorem mirrored_clearedErrors (h : s.Mirrored p r) (written : Nat)
    (result : Except ControlPlane.Fault ControlPlane.ClearResponse) :
    (clearedErrors target written result s).1.Mirrored p r := by
  simp only [clearedErrors, finish]
  split
  · exact h
  · exact h.warn _

/-- Every step of a transaction lets the store agree with the identity. -/
theorem mirrored_step {first : Bool} {t : Transaction} {o : Transaction.Outcome}
    (h : s.Mirrored p r) (hs : t.step b n first s = some o) : o.1.Mirrored p r := by
  have hsteps := stepsFrom_of_step hs
  generalize t.stage = place at hsteps
  cases hsteps with
  | queued free goes => exact goes ▸ mirrored_begin b n t.request h
  | checking client known reply goes =>
      exact goes ▸ mirrored_checked b n t.request client h known reply.result
  | creating client reply goes =>
      exact goes ▸ mirrored_created b n t.request client h reply.result
  | writing target files reply goes =>
      exact goes ▸ mirrored_wrote n t.request target h files reply.result
  | readingLogs target written reply goes =>
      exact goes ▸ mirrored_readLogs n target h written reply.result
  | clearingErrors target written reply goes =>
      exact goes ▸ mirrored_clearedErrors target h written reply.result

end Transaction

/-! ### Watches -/

namespace Monitor

variable {p : String} {r : Bool} {s : Site} {m : Monitor} {n : Nat} {o : Outcome}

theorem mirrored_tick (h : s.Mirrored p r) (w : Watch) (due : Nat) (unhealthy : UInt32) :
    (tick n w due unhealthy s m).1.Mirrored p r := by
  simp only [tick]
  exact h.connect.ask ..

theorem mirrored_trigger (h : s.Mirrored p r) (w : Watch) :
    (trigger n w s m).1.Mirrored p r := by
  simp only [trigger]
  split
  · refine Site.Mirrored.emit ?_ _
    exact (h.warn _).mapCount _
  · exact h

theorem mirrored_answered (h : s.Mirrored p r) (hs : Healers) (w : Watch) (next : Nat)
    (unhealthy : UInt32) (result : Except ControlPlane.Fault ControlPlane.InstanceStatus) :
    (answered hs n w next unhealthy result s m).1.Mirrored p r := by
  unfold answered
  split
  · exact h.warn _
  · repeat' split
    · exact h.warn _
    · exact h
    · exact h
    · exact h
    · exact h
    · exact mirrored_trigger h w

/-- Every step of a watch lets the store agree with the identity. -/
theorem mirrored_step {hs : Healers} (h : s.Mirrored p r) (ho : m.step hs n s = some o) :
    o.1.Mirrored p r := by
  obtain ⟨w, -, hsteps⟩ := stepsFrom_of_step ho
  cases hsteps with
  | stops due unhealthy sleeping cancelled goes =>
      rw [← goes]
      exact h
  | ticks due unhealthy sleeping going goes => exact goes ▸ mirrored_tick h w due unhealthy
  | answered next unhealthy reply asking goes =>
      exact goes ▸ mirrored_answered h hs w next unhealthy reply.result

end Monitor

/-! ### Orchestrators -/

namespace State

/-- What the store holds of the project agrees with the orchestrator's identity. -/
def Mirrored (p : String) (readable : Bool) (s : State) : Prop := s.toSite.Mirrored p readable

namespace Mirrored

variable {p : String} {r : Bool} {s u : State} {a : Action}

@[simp] theorem mapSelf_iff (f : Orchestrator → Orchestrator) :
    (s.mapSelf f).Mirrored p r ↔ s.Mirrored p r := Iff.rfl

theorem mapWorld (h : s.Mirrored p r) {f : World → World}
    (hf : (f s.world).Backs p r s.identity.inst ↔ s.world.Backs p r s.identity.inst) :
    (s.mapWorld f).Mirrored p r :=
  h.congr rfl hf

theorem countWith (h : s.Mirrored p r) (f : Metrics → Metrics) : (s.countWith f).Mirrored p r :=
  h.mapCount f

theorem count (h : s.Mirrored p r) (c : Counter) : (s.count c).Mirrored p r := h.mapCount _

theorem forget (h : s.Mirrored p r) : s.Mirrored p false := Site.Mirrored.forget h

theorem warn (h : s.Mirrored p r) (text : String) : (s.warn text).Mirrored p r :=
  Site.Mirrored.warn h text

theorem emit (h : s.Mirrored p r) (e : Event) : (s.emit e).Mirrored p r := Site.Mirrored.emit h e

theorem wake (h : s.Mirrored p r) (t : Task) : (s.wake t).Mirrored p r :=
  h.mapWorld (World.backs_wake ..)

theorem wakeAll (h : s.Mirrored p r) (ts : List Task) : (s.wakeAll ts).Mirrored p r := by
  induction ts generalizing s with
  | nil => exact h
  | cons t ts ih => exact ih (h.wake t)

theorem close (h : s.Mirrored p r) : s.close.Mirrored p r := wakeAll ((mapSelf_iff _).mpr h) _

theorem letGo (h : s.Mirrored p r) : s.letGo.Mirrored p r := by
  unfold State.letGo
  split
  · exact (mapSelf_iff _).mpr h.close
  · exact h

theorem endLoop (h : s.Mirrored p r) (n : Nat) (outcome : Option Outcome) :
    (s.endLoop n outcome).Mirrored p r :=
  wakeAll ((mapSelf_iff _).mpr h) _

theorem beginAttempt (h : s.Mirrored p r) (n : Nat) (l : Loop) (attempt : UInt32) :
    (s.beginAttempt n l attempt).Mirrored p r := by
  unfold State.beginAttempt
  split
  · exact h.endLoop n none
  · exact wake ((mapSelf_iff _).mpr ((mapSelf_iff _).mpr (h.count _))) _

theorem rotateFor (h : s.Mirrored p r) (reason : String) : (s.rotateFor reason).Mirrored p false :=
  emit (count (s := s.mapSite Site.rotate) h.rotate _) _

theorem failAttempt (h : s.Mirrored p r) (n : Nat) (l : Loop) (attempt : UInt32)
    (session : SessionId) (f : Failure) :
    (s.failAttempt n l attempt session f).Mirrored p false := by
  simp only [State.failAttempt]
  refine (mapSelf_iff _).mpr (emit ?_ _)
  split
  · exact (h.count _).rotateFor _
  · exact (Site.Mirrored.clearInstance (h.count _)).forget

theorem arm (h : s.Mirrored p r) (inst : InstanceId) : (s.arm inst).Mirrored p r :=
  wakeAll ((mapSelf_iff _).mpr h) _

theorem complete (h : s.Mirrored p r) (n : Nat) (l : Loop) (attempt : UInt32) (e : Execution) :
    (s.complete n l attempt e).Mirrored p r :=
  ((h.countWith _).emit _).endLoop n _

theorem beginSetup (h : s.Mirrored p r) (task : Task) (client : Client) (inst : InstanceId) :
    (s.beginSetup task client inst).2.Mirrored p r := by
  simp only [State.beginSetup]
  split
  · exact h
  · exact Site.Mirrored.ask h ..

theorem succeed (h : s.Mirrored p r) (n : Nat) (l : Loop) (attempt : UInt32) (e : Execution) :
    (s.succeed n l attempt e).Mirrored p r := by
  have armed : (armFor e s).Mirrored p r := by
    unfold armFor
    split
    · exact h.arm _
    · exact h
  have begun := armed.beginSetup (.loop n) e.client e.inst.id
  rw [succeed_eq]
  split
  · rename_i s' hs
    rw [hs] at begun
    exact begun.complete n l attempt e
  · rename_i reply s' hs
    rw [hs] at begun
    exact begun

theorem reportSetup (h : s.Mirrored p r)
    (result : Except ControlPlane.Fault ControlPlane.CommandsResponse) :
    (s.mapWorld (State.reportSetup result)).Mirrored p r := by
  have warnings (rs : List ControlPlane.CommandResult) (w : World) (i : Option Instance) :
      (rs.foldl (fun w _ => w.warn "setup command failed") w).Backs p r i ↔
        w.Backs p r i := by
    induction rs generalizing w with
    | nil => rfl
    | cons r rs ih => exact (ih _).trans (World.backs_warn _)
  refine h.mapWorld ?_
  unfold State.reportSetup
  split
  · simp
  · simp only
    split <;> simp [warnings]

/-- A loop can replace the session, and then it is not known that its row can be read. -/
theorem stepLoop (h : s.Mirrored p r) {n : Nat} (hs : s.stepLoop n = some u) :
    u.Mirrored p false := by
  obtain ⟨l, -, hs⟩ := stepLoop_cases hs
  cases hs with
  | stops => exact (h.endLoop n none).forget
  | begins attempt => exact (h.beginAttempt n l attempt).forget
  | succeeds attempt session k deadline attempting e => exact (h.succeed n l attempt e).forget
  | fails attempt session k deadline attempting f => exact h.failAttempt n l attempt session f
  | retries => exact h.forget
  | completes attempt e reply =>
      exact ((h.reportSetup reply.result).complete n l attempt e).forget

theorem stepTransaction (h : s.Mirrored p r) {n : Nat} (hs : s.stepTransaction n = some u) :
    u.Mirrored p r := by
  simp only [State.stepTransaction] at hs
  split at hs
  · cases hs
  · split at hs
    · cases hs
    · rename_i t ht site stage hstep
      cases hs
      have hsite : ({ s with toSite := site } : State).Mirrored p r :=
        Transaction.mirrored_step s.self.blueprint n h hstep
      split
      · exact wakeAll ((mapSelf_iff _).mpr ((mapSelf_iff _).mpr hsite)) _
      · exact hsite

theorem answer (h : s.Mirrored p r) (n : Nat) (c : Caller) (outcome : Option Outcome) :
    (s.answer n c outcome).Mirrored p r := by
  simp only [State.answer]
  refine letGo ?_
  split
  · exact warn ((mapSelf_iff _).mpr h) _
  · exact h

theorem leaveLoop (h : s.Mirrored p r) (loop : Nat) (starter : Bool) :
    (s.leaveLoop loop starter).Mirrored p r := by
  unfold State.leaveLoop
  split <;> exact h

theorem supersede (h : s.Mirrored p r) (deployment : DeploymentId) :
    (s.supersede deployment).Mirrored p r := by
  unfold State.supersede
  split
  · refine emit ?_ _
    simp only [cancelLoop]
    split
    · exact wake ((mapSelf_iff _).mpr h) _
    · exact h
  · exact h

theorem startLoop (h : s.Mirrored p r) (request : Request) :
    (s.startLoop request).Mirrored p r := by
  have minted : ({ s with world := s.world.mintDeployment.2 } : State).Mirrored p r :=
    h.congr rfl World.backs_mintDeployment
  exact wake ((mapSelf_iff _).mpr (((minted.supersede _).count _).emit _)) _

theorem stepCaller (h : s.Mirrored p r) {n : Nat} (hs : s.stepCaller n = some u) :
    u.Mirrored p r := by
  obtain ⟨c, -, hs⟩ := stepCaller_cases hs
  cases hs with
  | refused => exact h.answer n c none
  | joins => exact h.count _
  | starts => exact h.startLoop c.request
  | returns k since deadline starter waiting l loop outcome =>
      exact (h.leaveLoop k starter).answer n c outcome
  | expires k since deadline starter waiting l =>
      exact (((h.count _).emit _).leaveLoop k starter).answer n c none

theorem stepWatch (h : s.Mirrored p r) {n : Nat} (hs : s.stepWatch n = some u) :
    u.Mirrored p r := by
  simp only [State.stepWatch] at hs
  split at hs
  · cases hs
  · rename_i site monitor heals hstep
    cases hs
    have hsite : ({ s with toSite := site } : State).Mirrored p r := Monitor.mirrored_step h hstep
    split
    · simp only [heal]
      split
      · exact wake ((mapSelf_iff _).mpr hsite) _
      · exact hsite.congr rfl (World.backs_note _)
      · exact hsite
    · exact hsite

theorem shutdown (h : s.Mirrored p r) : s.shutdown.Mirrored p r := by
  unfold State.shutdown
  split
  · exact h
  · exact (mapSelf_iff _).mpr h.close

theorem abandon (h : s.Mirrored p r) (n : Nat) : (s.abandon n).Mirrored p r := by
  unfold State.abandon
  split
  · exact h
  · split
    · exact h
    · exact h
    · exact letGo ((mapSelf_iff _).mpr h)
    · exact letGo (leaveLoop ((mapSelf_iff _).mpr h) _ _)

/-- Whatever is done, the store goes on to agree with the identity. -/
theorem perform (h : s.Mirrored p false) (hp : s.perform a = some u) : u.Mirrored p false := by
  cases a with
  | step t =>
      cases t with
      | transaction n => exact h.stepTransaction hp
      | loop n => exact h.stepLoop hp
      | caller n => exact h.stepCaller hp
      | watch n => exact h.stepWatch hp
      | direct => cases hp
  | pass millis =>
      cases hp
      exact h.congr rfl (World.backs_congr rfl rfl)
  | call request =>
      simp only [State.perform, Option.ite_none_right_eq_some, Option.some.injEq] at hp
      exact hp.2 ▸ h
  | abandon n =>
      cases hp
      exact h.abandon n
  | shutdown =>
      cases hp
      exact h.shutdown
  | release =>
      cases hp
      exact letGo ((mapSelf_iff _).mpr h)
  | queueSetup commands =>
      cases hp
      exact h
  | setDebugging debugging =>
      cases hp
      exact h
  | generate files =>
      cases hp
      exact h.congr rfl (World.backs_congr rfl rfl)
  | prepare more =>
      cases hp
      exact h.congr rfl (World.backs_congr rfl rfl)

end Mirrored

/-- An orchestrator that is made for a project begins with what is stored of it. -/
theorem mirrored_start {p : String} {w : World} (works : ∀ fails ∈ w.outages, fails = false)
    (number : Nat) (config : Config) (blueprint : Blueprint) (setup : List String) :
    (start number (some p) config blueprint setup w).Mirrored p false := by
  have begins (w : World) (works : ∀ fails ∈ w.outages, fails = false) :
      (Identity.start (some p) w).Mirrored p false :=
    ⟨rfl, Identity.backs_sessionSaved ⟨w.mintSession.1, none, none, some p⟩ works rfl⟩
  change (Identity.restore p w).Mirrored p false
  unfold Identity.restore
  split
  · exact begins w works
  · rename_i s hs
    split
    · rename_i x hx
      refine ⟨rfl, works, ?_, nofun⟩
      intro x' hx'
      simp only [World.state?, hs, Option.bind_some, Store.state?, hx, Option.some.injEq] at hx'
      rw [← hx']
    · exact begins w works
    · exact begins _ works

theorem mirrored_of_follow {p : String} {s t : State} {actions : List Action}
    (h : s.Mirrored p false) (ht : s.follow actions = some t) : t.Mirrored p false := by
  induction actions generalizing s with
  | nil =>
      cases ht
      exact h
  | cons a actions ih =>
      obtain ⟨u, hu, ht⟩ := Option.bind_eq_some_iff.mp ht
      exact ih (h.perform hu) ht

end State

end PreviewDeploy
