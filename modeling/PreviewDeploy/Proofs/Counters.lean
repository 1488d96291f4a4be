import PreviewDeploy.Proofs.Narratives
import PreviewDeploy.Proofs.WatchHistory

/-!
# What is counted

The counters go with the events: what an action tells is what it counts (`Metrics.bookAll`).
Besides that it counts an attempt that begins and a call that joins a loop
(`Moment.countBesides`), and the files that a transaction leaves out (`State.books_of_perform`).
So over a run the counters of events have grown by the numbers of these events
(`State.tally_of_trace`), and the other two by the numbers of moments at which an attempt begins or
a call joins.
-/

namespace PreviewDeploy

open ControlPlane (Fault InstanceStatus)

namespace Event

def isStarted : Event → Bool
  | started .. => true
  | _ => false

def isAttemptFailed : Event → Bool
  | attemptFailed .. => true
  | _ => false

def isCompleted : Event → Bool
  | completed .. => true
  | _ => false

def isSelfHeal : Event → Bool
  | selfHealTriggered .. => true
  | _ => false

end Event

/-! ### Events and counters -/

namespace Metrics

/-- The counters after an event was told. -/
def book (m : Metrics) : Event → Metrics
  | .started .. => m.count .started
  | .attemptFailed .. => m.count .attemptFailed
  | .completed _ _ _ _ durationMs _ => m.complete durationMs
  | .timedOut .. => m.count .timedOut
  | .sessionRotated .. => m.count .rotated
  | .selfHealTriggered _ => m.count .selfHeal
  | .superseded .. => m

/-- The counters after events were told, the first one first. -/
def bookAll (m : Metrics) (told : List Event) : Metrics := told.foldl book m

/-- The counters of events have grown by the numbers of these events. -/
structure Tally (m : Metrics) (told : List Event) (m' : Metrics) : Prop where
  started : m'.started = m.started + told.countP Event.isStarted
  completed : m'.completed = m.completed + told.countP Event.isCompleted
  timedOut : m'.timedOut = m.timedOut + told.countP Event.isTimedOut
  attemptFailures : m'.attemptFailures = m.attemptFailures + told.countP Event.isAttemptFailed
  rotations : m'.rotations = m.rotations + told.countP Event.isRotation
  selfHeals : m'.selfHeals = m.selfHeals + told.countP Event.isSelfHeal
  durations : m'.durations.length = m.durations.length + told.countP Event.isCompleted

variable {m m' m'' : Metrics} {told more : List Event} {e : Event}

theorem Tally.refl : Tally m [] m := by
  constructor <;> rfl

theorem Tally.trans (h : Tally m told m') (h' : Tally m' more m'') :
    Tally m (told ++ more) m'' := by
  constructor <;> rw [List.countP_append, ← Nat.add_assoc]
  · rw [h'.started, h.started]
  · rw [h'.completed, h.completed]
  · rw [h'.timedOut, h.timedOut]
  · rw [h'.attemptFailures, h.attemptFailures]
  · rw [h'.rotations, h.rotations]
  · rw [h'.selfHeals, h.selfHeals]
  · rw [h'.durations, h.durations]

theorem tally_book : Tally m [e] (m.book e) := by
  cases e <;> constructor <;> rfl

theorem tally_bookAll : Tally m told (m.bookAll told) := by
  induction told generalizing m with
  | nil => exact .refl
  | cons e told ih => exact tally_book.trans ih

@[simp] theorem bookAll_attempts : (m.bookAll told).attempts = m.attempts := by
  induction told generalizing m with
  | nil => rfl
  | cons e told ih =>
      have he : (m.book e).attempts = m.attempts := by cases e <;> rfl
      exact (ih (m := m.book e)).trans he

@[simp] theorem bookAll_coalesced : (m.bookAll told).coalesced = m.coalesced := by
  induction told generalizing m with
  | nil => rfl
  | cons e told ih =>
      have he : (m.book e).coalesced = m.coalesced := by cases e <;> rfl
      exact (ih (m := m.book e)).trans he

/-- Only files that were left out are counted. -/
def Drops (m m' : Metrics) : Prop := ∃ k, m' = m.drop k

theorem Drops.refl : Drops m m := ⟨0, rfl⟩

theorem Drops.of_eq (h : m' = m) : Drops m m' := h ▸ .refl

theorem Drops.trans (h : Drops m m') (h' : Drops m' m'') : Drops m m'' := by
  obtain ⟨k, rfl⟩ := h
  obtain ⟨k', rfl⟩ := h'
  exact ⟨k + k', by simp [drop, Nat.add_assoc]⟩

end Metrics

/-! ### Worlds and sites -/

namespace World

variable (w : World)

@[simp] theorem metrics_wake (number : Nat) (t : Task) : (w.wake number t).metrics = w.metrics := by
  unfold wake
  split <;> rfl

end World

namespace Identity

variable (id : Identity) (w : World)

@[simp] theorem metrics_sessionSaved : (id.sessionSaved w).metrics = w.metrics := by
  unfold sessionSaved
  split <;> simp

@[simp] theorem metrics_instanceSaved : (id.instanceSaved w).metrics = w.metrics := by
  unfold instanceSaved
  split <;> simp

end Identity

namespace Site

variable (s : Site)

@[simp] theorem metrics_rotate : s.rotate.world.metrics = s.world.metrics := by
  simp only [rotate, Identity.metrics_sessionSaved]
  rfl

@[simp] theorem metrics_dropInstance : s.dropInstance.world.metrics = s.world.metrics := by
  simp [dropInstance]

@[simp] theorem metrics_setInstanceIf (session : SessionId) (inst : Instance) :
    (s.setInstanceIf session inst).2.world.metrics = s.world.metrics := by
  unfold setInstanceIf
  split <;> simp

@[simp] theorem metrics_clearInstanceIf (name : InstanceId) :
    (s.clearInstanceIf name).2.world.metrics = s.world.metrics := by
  unfold clearInstanceIf
  repeat' split
  all_goals simp

@[simp] theorem metrics_clearInstance : s.clearInstance.world.metrics = s.world.metrics := by
  unfold clearInstance
  split <;> simp

theorem metrics_foldl_warn {α : Type} (text : String) (xs : List α) :
    (xs.foldl (fun s _ => s.warn text) s).world.metrics = s.world.metrics := by
  induction xs generalizing s with
  | nil => rfl
  | cons x xs ih => exact (ih (s.warn text)).trans (by simp)

end Site

/-! ### Transactions -/

namespace Transaction

open Metrics (Drops)

variable {b : Blueprint} {n : Nat} {request : Request} {s s' : Site} {stage : TransactionStage}
  {target : Ensured} {written : Nat} {client : Client}

theorem drops_beginClearing (h : beginClearing n request target written s = (s', stage)) :
    Drops s.world.metrics s'.world.metrics := by
  rw [beginClearing_eq] at h
  split at h
  · obtain ⟨rfl, rfl⟩ := Prod.mk.inj h
    exact .of_eq (by simp [World.askLogs])
  · obtain ⟨rfl, rfl⟩ := Prod.mk.inj h
    exact .refl

theorem drops_warned (request : Request) (fresh : Bool) :
    Drops s.world.metrics (warned b request fresh s).world.metrics := by
  unfold warned warnOfDropped
  simp only
  generalize (Selection.select b.policy request.files fresh s.world.project).dropped = dropped
  refine ⟨dropped.length, ?_⟩
  rw [← s.metrics_foldl_warn "policy violation: skipping write to read-only path" dropped]
  rfl

theorem drops_beginWriting (h : beginWriting b n request target s = (s', stage)) :
    Drops s.world.metrics s'.world.metrics := by
  have hwarned : Drops s.world.metrics (warned b request target.fresh s).world.metrics :=
    drops_warned request target.fresh
  rw [beginWriting_eq] at h
  simp only at h
  split at h
  · exact hwarned.trans (drops_beginClearing h)
  · obtain ⟨rfl, rfl⟩ := Prod.mk.inj h
    exact hwarned.trans (.of_eq (by simp [World.askWrite]))

theorem drops_beginCreating (h : beginCreating b n client s = (s', stage)) :
    Drops s.world.metrics s'.world.metrics := by
  unfold beginCreating at h
  simp only at h
  split at h
  · obtain ⟨rfl, rfl⟩ := Prod.mk.inj h
    exact .refl
  · obtain ⟨rfl, rfl⟩ := Prod.mk.inj h
    exact .of_eq (by simp [World.askCreate]; rfl)

theorem drops_begin (h : begin b n request s = (s', stage)) :
    Drops s.world.metrics s'.world.metrics := by
  have hconnect : Drops s.world.metrics s.connect.2.world.metrics := .of_eq (by simp)
  unfold begin at h
  simp only at h
  split at h
  · obtain ⟨rfl, rfl⟩ := Prod.mk.inj h
    exact hconnect.trans (.of_eq (by simp [World.askStatus]))
  · exact hconnect.trans (drops_beginCreating h)

theorem drops_checked {known : Instance} {result : Except Fault InstanceStatus}
    (h : checked b n request client known result s = (s', stage)) :
    Drops s.world.metrics s'.world.metrics := by
  unfold checked at h
  split at h
  · split at h
    · exact drops_beginWriting h
    · exact drops_beginCreating h
  · have hwarn : Drops s.world.metrics
        (s.warn "status check failed, provisioning a new one").world.metrics := .of_eq (by simp)
    exact hwarn.trans (drops_beginCreating h)

theorem drops_created {result : Except Fault ControlPlane.CreateResponse}
    (h : created b n request client result s = (s', stage)) :
    Drops s.world.metrics s'.world.metrics := by
  unfold created at h
  split at h
  · obtain ⟨rfl, rfl⟩ := Prod.mk.inj h
    exact .refl
  · split at h
    · obtain ⟨rfl, rfl⟩ := Prod.mk.inj h
      exact .refl
    · rename_i inst _
      simp only at h
      refine Metrics.Drops.trans (.of_eq ?_) (drops_beginWriting h)
      split <;> simp

theorem drops_failWrite {failure : Failure} (h : failWrite target failure s = (s', stage)) :
    Drops s.world.metrics s'.world.metrics := by
  obtain ⟨rfl, rfl⟩ := Prod.mk.inj h
  exact .of_eq (by simp)

theorem drops_wrote {files : List File} {result : Except Fault ControlPlane.WriteResponse}
    (h : wrote n request target files result s = (s', stage)) :
    Drops s.world.metrics s'.world.metrics := by
  unfold wrote at h
  split at h
  · exact drops_failWrite h
  · rename_i response
    simp only at h
    have hwarn : Drops s.world.metrics
        (response.failed.foldl (fun s _ => s.warn "file write failed") s).world.metrics :=
      .of_eq (s.metrics_foldl_warn _ _)
    split at h
    · exact hwarn.trans (drops_failWrite h)
    · exact hwarn.trans (drops_beginClearing h)

theorem drops_readLogs {result : Except Fault ControlPlane.InstanceLogs}
    (h : readLogs n target written result s = (s', stage)) :
    Drops s.world.metrics s'.world.metrics := by
  unfold readLogs at h
  simp only at h
  obtain ⟨rfl, rfl⟩ := Prod.mk.inj h
  refine .of_eq ?_
  split <;> simp [World.askClear]

theorem drops_clearedErrors {result : Except Fault ControlPlane.ClearResponse}
    (h : clearedErrors target written result s = (s', stage)) :
    Drops s.world.metrics s'.world.metrics := by
  unfold clearedErrors at h
  simp only at h
  obtain ⟨rfl, rfl⟩ := Prod.mk.inj h
  refine .of_eq ?_
  split <;> simp

/-- A step of a transaction counts nothing but the files that it leaves out. -/
theorem drops_of_step {t : Transaction} {first : Bool} (h : t.step b n first s = some (s', stage)) :
    Drops s.world.metrics s'.world.metrics := by
  have hsteps := stepsFrom_of_step h
  generalize t.stage = place at hsteps
  cases hsteps with
  | queued free goes => exact drops_begin goes
  | checking client known reply goes => exact drops_checked goes
  | creating client reply goes => exact drops_created goes
  | writing target files reply goes => exact drops_wrote goes
  | readingLogs target written reply goes => exact drops_readLogs goes
  | clearingErrors target written reply goes => exact drops_clearedErrors goes

end Transaction

/-! ### Watches -/

/-- A step of a watch counts that it asks for healing, and nothing else. -/
theorem Monitor.metrics_of_step {hs : Healers} {n : Nat} {s s' : Site} {m m' : Monitor}
    {heals : Bool} (h : m.step hs n s = some (s', m', heals)) :
    s'.world.metrics = if heals then s.world.metrics.count .selfHeal else s.world.metrics := by
  obtain ⟨w, -, hsteps⟩ := stepsFrom_of_step h
  cases hsteps with
  | stops due unhealthy sleeping cancelled goes =>
      simp only [Prod.mk.injEq] at goes
      obtain ⟨rfl, rfl, rfl⟩ := goes
      rfl
  | ticks due unhealthy sleeping going goes =>
      simp only [tick, Prod.mk.injEq] at goes
      obtain ⟨rfl, rfl, rfl⟩ := goes
      simp [World.askStatus]
  | answered next unhealthy reply asking goes =>
      unfold Monitor.answered trigger at goes
      simp only at goes
      repeat' split at goes
      all_goals
        simp only [Prod.mk.injEq] at goes
        obtain ⟨rfl, rfl, rfl⟩ := goes
        simp

/-! ### Operations -/

namespace State

variable (s : State) (n : Nat)

@[simp] theorem metrics_wakeAll (ts : List Task) :
    (s.wakeAll ts).world.metrics = s.world.metrics := by
  induction ts generalizing s with
  | nil => rfl
  | cons t ts ih => exact (ih (s.wake t)).trans (by simp)

@[simp] theorem metrics_letGo : s.letGo.world.metrics = s.world.metrics := by
  unfold letGo close
  split <;> simp

@[simp] theorem metrics_endLoop (outcome : Option Outcome) :
    (s.endLoop n outcome).world.metrics = s.world.metrics := by
  simp [endLoop]

theorem metrics_beginAttempt {l : Loop} (h : l.cancelled = false) (attempt : UInt32) :
    (s.beginAttempt n l attempt).world.metrics = s.world.metrics.count .attempt := by
  simp [beginAttempt, enqueue, h]

@[simp] theorem metrics_rotateFor (reason : String) :
    (s.rotateFor reason).world.metrics = s.world.metrics.count .rotated := by
  simp [rotateFor]

theorem metrics_failAttempt (l : Loop) (attempt : UInt32) (session : SessionId) (f : Failure) :
    (s.failAttempt n l attempt session f).world.metrics =
      s.world.metrics.bookAll (failureEvents l attempt session f s) := by
  unfold failAttempt failureEvents
  cases rotates s.self.config attempt f with
  | true =>
      simp
      rfl
  | false =>
      simp
      rfl

@[simp] theorem metrics_arm (inst : InstanceId) :
    (s.arm inst).world.metrics = s.world.metrics := by
  simp [arm]

theorem metrics_complete (l : Loop) (attempt : UInt32) (e : Execution) :
    (s.complete n l attempt e).world.metrics =
      s.world.metrics.bookAll [completion l attempt e s.world.now] := by
  simp [complete]
  rfl

@[simp] theorem metrics_armFor (e : Execution) : (armFor e s).world.metrics = s.world.metrics := by
  unfold armFor
  split <;> simp

theorem metrics_succeed_of_nil (h : s.self.setup = []) (l : Loop) (attempt : UInt32)
    (e : Execution) :
    (s.succeed n l attempt e).world.metrics =
      s.world.metrics.bookAll [completion l attempt e s.world.now] := by
  have h' : (armFor e s).self.setup = [] := by simp [h]
  rw [succeed_eq, beginSetup_of_nil _ h']
  simp [metrics_complete]

theorem metrics_succeed_of_ne_nil (h : s.self.setup ≠ []) (l : Loop) (attempt : UInt32)
    (e : Execution) : (s.succeed n l attempt e).world.metrics = s.world.metrics := by
  have h' : (armFor e s).self.setup ≠ [] := by simpa using h
  rw [succeed_eq, beginSetup_of_ne_nil _ h']
  simp [setupSite, World.askCommands]

@[simp] theorem metrics_reportSetup
    (result : Except ControlPlane.Fault ControlPlane.CommandsResponse) (w : World) :
    (reportSetup result w).metrics = w.metrics := by
  have warnings (rs : List ControlPlane.CommandResult) (w : World) :
      (rs.foldl (fun w _ => w.warn "setup command failed") w).metrics = w.metrics := by
    induction rs generalizing w with
    | nil => rfl
    | cons r rs ih => exact (ih _).trans (by simp)
  unfold reportSetup
  cases result with
  | error fault => simp
  | ok response =>
      simp only
      split <;> simp [warnings]

@[simp] theorem metrics_answer (c : Caller) (outcome : Option Outcome) :
    (s.answer n c outcome).world.metrics = s.world.metrics := by
  unfold answer
  simp only [metrics_letGo]
  split <;> simp

@[simp] theorem metrics_supersede (deployment : DeploymentId) :
    (s.supersede deployment).world.metrics = s.world.metrics := by
  unfold supersede cancelLoop
  repeat' split
  all_goals simp
  split <;> simp

theorem metrics_startLoop (request : Request) :
    (s.startLoop request).world.metrics = s.world.metrics.bookAll (startEvents request s) := by
  have hbook : s.world.metrics.bookAll (startEvents request s) =
      s.world.metrics.count .started := by
    unfold startEvents supersession
    split <;> rfl
  rw [hbook]
  simp [startLoop]
  rfl

theorem metrics_giveUp (since : Nat) (deployment : DeploymentId) :
    (s.giveUp since deployment).world.metrics =
      s.world.metrics.bookAll [expiry since deployment s] := by
  simp [giveUp]
  rfl

@[simp] theorem metrics_heal : s.heal.world.metrics = s.world.metrics := by
  unfold heal
  split <;> simp [World.note]

@[simp] theorem metrics_shutdown : s.shutdown.world.metrics = s.world.metrics := by
  unfold shutdown close
  split <;> simp

@[simp] theorem metrics_abandon : (s.abandon n).world.metrics = s.world.metrics := by
  unfold abandon
  repeat' split
  all_goals simp

end State

/-! ### Actions -/

namespace Moment

/-- A loop begins an attempt at a moment. -/
def begins (e : Moment) : Bool :=
  match e.action with
  | .step (.loop n) =>
    match e.state.self.loops[n]? with
    | some l =>
      match l.stage with
      | .ready _ => !l.cancelled
      | _ => false
    | none => false
  | _ => false

/-- A call joins a loop at a moment. -/
def joins (e : Moment) : Bool :=
  match e.action with
  | .step (.caller n) => e.enters n && !e.state.self.isClosed && e.state.self.slot.isSome
  | _ => false

/-- Counts what is not told. -/
def countBesides (e : Moment) (m : Metrics) : Metrics :=
  { m with attempts := m.attempts + e.begins.toNat, coalesced := m.coalesced + e.joins.toNat }

variable {e : Moment}

theorem begins_eq_true : e.begins = true ↔ ∃ n l attempt, e.action = .step (.loop n) ∧
    e.state.self.loops[n]? = some l ∧ l.stage = .ready attempt ∧ l.cancelled = false := by
  constructor
  · intro h
    unfold begins at h
    split at h
    · rename_i n haction
      split at h
      · rename_i l hl
        split at h
        · rename_i attempt ready
          exact ⟨n, l, attempt, haction, hl, ready, by simpa using h⟩
        · cases h
      · cases h
    · cases h
  · rintro ⟨n, l, attempt, haction, hl, ready, going⟩
    simp [begins, haction, hl, ready, going]

theorem begins_of_other (other : ∀ n, e.action ≠ .step (.loop n)) : e.begins = false := by
  unfold begins
  split
  · exact absurd (by assumption) (other _)
  · rfl

theorem joins_of_other (other : ∀ n, e.action ≠ .step (.caller n)) : e.joins = false := by
  unfold joins
  split
  · exact absurd (by assumption) (other _)
  · rfl

end Moment

namespace State

variable {s t u : State} {a : Action} {h : List Moment} {n : Nat} {more : List Event}

/-- The counters after an action are those before it, with what the action tells and with what it
counts besides; only files that were left out are counted, too. -/
def Books (s u : State) (a : Action) : Prop :=
  Metrics.Drops (Moment.countBesides ⟨s, a⟩ (s.world.metrics.bookAll (Moment.told ⟨s, a⟩)))
    u.world.metrics

theorem told_eq (hp : s.perform a = some u) (hevents : u.world.events = s.world.events ++ more) :
    Moment.told ⟨s, a⟩ = more := by
  simp [Moment.told, hp, hevents]

/-- An action that begins no attempt and by which no call joins a loop. -/
theorem Books.of_idle (more : List Event) (hp : s.perform a = some u)
    (hevents : u.world.events = s.world.events ++ more)
    (begins : Moment.begins ⟨s, a⟩ = false) (joins : Moment.joins ⟨s, a⟩ = false)
    (hmetrics : Metrics.Drops (s.world.metrics.bookAll more) u.world.metrics) : Books s u a := by
  have hbesides (m : Metrics) : Moment.countBesides ⟨s, a⟩ m = m := by
    rw [Moment.countBesides, begins, joins]
    rfl
  rw [Books, told_eq hp hevents, hbesides]
  exact hmetrics

theorem books_of_stepTransaction (hp : s.stepTransaction n = some u) :
    Books s u (.step (.transaction n)) := by
  obtain ⟨t, site, stage, ht, hstep, -, -, -, -, -, hevents⟩ := stepTransaction_cases hp
  have htold : u.world.events = s.world.events ++ [] := by
    simp [hevents, (Transaction.advances_of_step hstep).1.events]
  have hmetrics : u.world.metrics = site.world.metrics := by
    simp only [stepTransaction, ht, hstep, Option.some.injEq] at hp
    rw [← hp]
    split <;> simp [endTurn]
  refine .of_idle [] hp htold rfl rfl ?_
  rw [hmetrics]
  exact Transaction.drops_of_step hstep

theorem books_of_stepLoop (hp : s.stepLoop n = some u) : Books s u (.step (.loop n)) := by
  obtain ⟨l, hl, hs⟩ := stepLoop_cases hp
  cases hs with
  | stops cancelled idle =>
      have hbegins : Moment.begins ⟨s, .step (.loop n)⟩ = false := by
        obtain ⟨attempt, hs⟩ | ⟨attempt, due, hs⟩ := idle
        · simp [Moment.begins, hl, hs, cancelled]
        · simp [Moment.begins, hl, hs]
      exact .of_idle [] hp (by simp) hbegins rfl (.of_eq (by simp [Metrics.bookAll]))
  | begins attempt ready going =>
      have hbegins : Moment.begins ⟨s, .step (.loop n)⟩ = true :=
        Moment.begins_eq_true.mpr ⟨n, l, attempt, rfl, hl, ready, going⟩
      have htold : Moment.told ⟨s, .step (.loop n)⟩ = [] :=
        told_eq hp (by simp [beginAttempt_frame s going])
      rw [Books, htold, Moment.countBesides, hbegins, metrics_beginAttempt s n going]
      exact .refl
  | succeeds attempt session k deadline attempting x result =>
      have hbegins : Moment.begins ⟨s, .step (.loop n)⟩ = false := by
        simp [Moment.begins, hl, attempting]
      by_cases hset : s.self.setup = []
      · obtain ⟨-, -, -, -, -, hevents⟩ := succeed_of_nil s hset n l attempt x
        exact .of_idle _ hp hevents hbegins rfl
          (.of_eq (metrics_succeed_of_nil s n hset l attempt x))
      · obtain ⟨-, -, -, -, -, hevents⟩ := succeed_of_ne_nil s hset n l attempt x
        exact .of_idle [] hp (by simp [hevents]) hbegins rfl
          (.of_eq (metrics_succeed_of_ne_nil s n hset l attempt x))
  | fails attempt session k deadline attempting f result =>
      exact .of_idle _ hp (failAttempt_frame s n l attempt session f).2.2.2.2.2
        (by simp [Moment.begins, hl, attempting]) rfl
        (.of_eq (metrics_failAttempt s n l attempt session f))
  | retries attempt due waiting going late =>
      exact .of_idle [] hp (by simp) (by simp [Moment.begins, hl, waiting]) rfl .refl
  | completes attempt x reply settingUp late =>
      refine .of_idle [completion l attempt x s.world.now] hp (by simp)
        (by simp [Moment.begins, hl, settingUp]) rfl (.of_eq ?_)
      simp [metrics_complete]

theorem books_of_stepCaller (hp : s.stepCaller n = some u) : Books s u (.step (.caller n)) := by
  obtain ⟨c, hc, hs⟩ := stepCaller_cases hp
  cases hs with
  | refused entering closed =>
      exact .of_idle [] hp (by simp) rfl (by simp [Moment.joins, closed])
        (.of_eq (by simp [Metrics.bookAll]))
  | joins entering going k taken =>
      have hjoins : Moment.joins ⟨s, .step (.caller n)⟩ = true := by
        simp [Moment.joins, enters_of_entering hc entering, going, taken]
      have htold : Moment.told ⟨s, .step (.caller n)⟩ = [] := told_eq hp (by simp)
      rw [Books, htold, Moment.countBesides, hjoins]
      exact .refl
  | starts entering going free =>
      refine .of_idle (startEvents c.request s) hp (by simp) rfl
        (by simp [Moment.joins, free]) (.of_eq ?_)
      exact metrics_startLoop s c.request
  | returns k since deadline starter waiting =>
      exact .of_idle [] hp (by simp) rfl
        (by simp [Moment.joins, enters_of_waiting hc waiting]) (.of_eq (by simp [Metrics.bookAll]))
  | expires k since deadline starter waiting l =>
      refine .of_idle [expiry since l.deployment s] hp (by simp) rfl
        (by simp [Moment.joins, enters_of_waiting hc waiting]) (.of_eq ?_)
      simp [metrics_giveUp]

theorem books_of_stepWatch (hp : s.stepWatch n = some u) : Books s u (.step (.watch n)) := by
  obtain ⟨site, heals, hstep, -, hu⟩ := step_of_stepWatch hp
  obtain ⟨w, -, htells⟩ := Monitor.tells_of_step hstep
  have hmetrics := Monitor.metrics_of_step hstep
  cases heals with
  | true =>
      refine .of_idle [.selfHealTriggered w.inst] hp ?_ rfl rfl (.of_eq ?_)
      · rw [hu]
        simpa using htells.told
      · rw [hu]
        exact (metrics_heal _).trans hmetrics
  | false =>
      refine .of_idle [] hp ?_ rfl rfl (.of_eq ?_)
      · rw [hu]
        exact htells.told
      · rw [hu]
        exact hmetrics

theorem outer_frame (outer : ∀ t, a ≠ .step t) (hp : s.perform a = some u) :
    u.world.events = s.world.events ∧ u.world.metrics = s.world.metrics := by
  cases a with
  | step t => exact absurd rfl (outer t)
  | call request =>
      simp only [perform, Option.ite_none_right_eq_some, Option.some.injEq] at hp
      obtain ⟨-, rfl⟩ := hp
      exact ⟨rfl, rfl⟩
  | abandon n =>
      obtain rfl := Option.some.inj hp
      simp
  | shutdown =>
      obtain rfl := Option.some.inj hp
      simp
  | release =>
      obtain rfl := Option.some.inj hp
      simp [release]
  | _ =>
      obtain rfl := Option.some.inj hp
      exact ⟨rfl, rfl⟩

theorem told_of_outer (outer : ∀ t, a ≠ .step t) (hp : s.perform a = some u) :
    Moment.told ⟨s, a⟩ = [] :=
  told_eq hp (by simp [(outer_frame outer hp).1])

theorem books_of_outer (outer : ∀ t, a ≠ .step t) (hp : s.perform a = some u) : Books s u a := by
  obtain ⟨hevents, hmetrics⟩ := outer_frame outer hp
  exact .of_idle [] hp (by simp [hevents]) (Moment.begins_of_other fun n => outer (.loop n))
    (Moment.joins_of_other fun n => outer (.caller n)) (.of_eq hmetrics)

/-- Whatever is done, it counts what it tells. -/
theorem books_of_perform (hp : s.perform a = some u) : Books s u a := by
  cases a with
  | step t =>
      cases t with
      | transaction n => exact books_of_stepTransaction hp
      | loop n => exact books_of_stepLoop hp
      | caller n => exact books_of_stepCaller hp
      | watch n => exact books_of_stepWatch hp
      | direct => cases hp
  | _ => exact books_of_outer (by simp) hp

/-! ### Runs -/

theorem tally_of_books (hb : Books s u a) :
    Metrics.Tally s.world.metrics (Moment.told ⟨s, a⟩) u.world.metrics := by
  obtain ⟨k, hk⟩ := hb
  have h : Metrics.Tally s.world.metrics (Moment.told ⟨s, a⟩)
      (s.world.metrics.bookAll (Moment.told ⟨s, a⟩)) := Metrics.tally_bookAll
  rw [hk]
  exact ⟨h.started, h.completed, h.timedOut, h.attemptFailures, h.rotations, h.selfHeals,
    h.durations⟩

theorem attempts_of_books (hb : Books s u a) :
    u.world.metrics.attempts = s.world.metrics.attempts + (Moment.begins ⟨s, a⟩).toNat := by
  obtain ⟨k, hk⟩ := hb
  rw [hk]
  simp [Metrics.drop, Moment.countBesides]

theorem coalesced_of_books (hb : Books s u a) :
    u.world.metrics.coalesced = s.world.metrics.coalesced + (Moment.joins ⟨s, a⟩).toNat := by
  obtain ⟨k, hk⟩ := hb
  rw [hk]
  simp [Metrics.drop, Moment.countBesides]

theorem countP_cons_toNat {α : Type} (p : α → Bool) (x : α) (xs : List α) :
    (x :: xs).countP p = xs.countP p + (p x).toNat := by
  rw [List.countP_cons]
  cases p x <;> rfl

/-- The counters of events have grown by the numbers of the events that were told. -/
theorem tally_of_trace (ht : Trace s h t) :
    Metrics.Tally s.world.metrics (told h) t.world.metrics := by
  induction ht with
  | start => exact .refl
  | step _ hp ih => exact ih.trans (tally_of_books (books_of_perform hp))

theorem attempts_of_trace (ht : Trace s h t) :
    t.world.metrics.attempts = s.world.metrics.attempts + h.countP (·.begins) := by
  induction ht with
  | start => rfl
  | step _ hp ih =>
      rw [attempts_of_books (books_of_perform hp), ih, countP_cons_toNat, Nat.add_assoc]

/-- Callers that share a loop are counted as they join it. -/
theorem coalesced_of_joins (ht : Trace s h t) :
    t.world.metrics.coalesced = s.world.metrics.coalesced + h.countP (·.joins) := by
  induction ht with
  | start => rfl
  | step _ hp ih =>
      rw [coalesced_of_books (books_of_perform hp), ih, countP_cons_toNat, Nat.add_assoc]

end State

end PreviewDeploy
