import PreviewDeploy.Proofs.Monitoring

/-!
# Watches and their answers

A monitor is armed, disarmed and shut down in any order, and meanwhile its watches go on
(`WatchTrace`); whatever else happens, such as debugging or the end of the healer, comes between.
The watch that counts is the one that was armed last, unless it was disarmed or has asked for
healing since (`Current`).  A watch asks for healing exactly when it counts and gets an answer that
says unhealthy, after enough such answers in a row, while somebody is there to heal and nobody
debugs (`State.heals_of_watch`).  The row is counted modulo `2 ^ 32`: after so many answers, which
takes somebody who debugs all the while, the watch begins to count anew.

A shutdown is not among these conditions: a watch that waits for an answer when the monitor is shut
down goes by the answer as ever.
-/

namespace PreviewDeploy

open ControlPlane (Fault InstanceStatus)

/-! ### Answers -/

/-- What an answer says of the health of an instance, if it says something. -/
def verdict? : Except Fault InstanceStatus → Option Bool
  | .error _ => none
  | .ok status => if status.success then some status.isHealthy else none

/-- How many of the answers that say something were unhealthy, since the last healthy one; the
last answer is the first. -/
def unhealthyRun (answers : List (Except Fault InstanceStatus)) : Nat :=
  ((answers.filterMap verdict?).takeWhile (· = false)).length

theorem unhealthyRun_cons (answer : Except Fault InstanceStatus)
    (answers : List (Except Fault InstanceStatus)) :
    unhealthyRun (answer :: answers) =
      match verdict? answer with
      | none => unhealthyRun answers
      | some true => 0
      | some false => unhealthyRun answers + 1 := by
  unfold unhealthyRun
  cases h : verdict? answer with
  | none => rw [List.filterMap_cons_none h]
  | some healthy => cases healthy <;> simp [List.filterMap_cons_some h]

namespace WatchStage

/-- The answer that is waited for. -/
def answer? : WatchStage → Option (Except Fault InstanceStatus)
  | .asking _ _ reply => some reply.result
  | _ => none

/-- A watch that goes on has counted so many unhealthy answers, as far as its count goes. -/
def Counts (k : Nat) : WatchStage → Prop
  | .sleeping _ unhealthy => unhealthy = .ofNat k
  | .asking _ unhealthy _ => unhealthy = .ofNat k
  | .stopped => True

end WatchStage

/-! ### Histories -/

/-- What is done to a monitor. -/
inductive WatchDeed where
  | arm (inst : InstanceId)
  | disarm
  /-- The monitor is shut down. -/
  | close
  /-- The `n`-th watch goes on. -/
  | step (n : Nat)
  /-- The monitor has no part in what is done. -/
  | elsewhere

/-- What a deed leads to; what is done elsewhere can do anything but change the monitor. -/
inductive State.Tends (s : State) : WatchDeed → State → Prop
  | arm (inst : InstanceId) : s.Tends (.arm inst) (s.arm inst)
  | disarm : s.Tends .disarm s.disarm
  | close : s.Tends .close s.close
  | step {u : State} (n : Nat) (h : s.stepWatch n = some u) : s.Tends (.step n) u
  | elsewhere {u : State} (h : u.self.monitor = s.self.monitor) : s.Tends .elsewhere u

/-- A deed and the state in which it is done. -/
structure WatchMoment where
  state : State
  deed : WatchDeed

/-- The deeds of a history lead from `s` to a state; the last one is the first. -/
inductive WatchTrace (s : State) : List WatchMoment → State → Prop
  | start : WatchTrace s [] s
  | step {h : List WatchMoment} {t u : State} {d : WatchDeed} :
      WatchTrace s h t → t.Tends d u → WatchTrace s (⟨t, d⟩ :: h) u

namespace WatchMoment

/-- The instance that the monitor is armed for at a moment. -/
def armed? (e : WatchMoment) : Option InstanceId :=
  match e.deed with
  | .arm inst => some inst
  | _ => none

/-- A watch asks for healing at a moment. -/
def heals (e : WatchMoment) : Bool :=
  match e.deed with
  | .step n => Moment.heals ⟨e.state, .step (.watch n)⟩
  | _ => false

/-- The watch that counts does so no more: it is replaced or disarmed, or asks for healing. -/
def retires (e : WatchMoment) : Bool :=
  match e.deed with
  | .arm _ | .disarm => true
  | _ => e.heals

/-- The answer that the `n`-th watch goes by at a moment. -/
def answer? (n : Nat) (e : WatchMoment) : Option (Except Fault InstanceStatus) :=
  match e.deed with
  | .step m => if m = n then e.state.self.monitor.watches[m]?.bind (·.stage.answer?) else none
  | _ => none

end WatchMoment

/-- The instances that the monitor was armed for, the first one first; the `n`-th watch is that of
the `n`-th instance. -/
def armedFor (h : List WatchMoment) : List InstanceId := h.reverse.filterMap (·.armed?)

/-- The answers that the `n`-th watch went by, the last one first. -/
def answersTo (n : Nat) (h : List WatchMoment) : List (Except Fault InstanceStatus) :=
  h.filterMap (·.answer? n)

/-- The `n`-th watch was armed and has not been retired since. -/
def Current (h : List WatchMoment) (n : Nat) : Prop :=
  ∃ later e earlier, h = later ++ e :: earlier ∧ e.armed?.isSome = true ∧
    (armedFor earlier).length = n ∧ ∀ e' ∈ later, e'.retires = false

section History

variable {h : List WatchMoment} {e : WatchMoment} {n m : Nat}

theorem armedFor_cons (e : WatchMoment) (h : List WatchMoment) :
    armedFor (e :: h) = armedFor h ++ e.armed?.toList := by
  unfold armedFor
  rw [List.reverse_cons, List.filterMap_append]
  cases he : e.armed? <;> simp [he]

theorem current_nil : ¬ Current [] n := by
  rintro ⟨later, e, earlier, heq, -⟩
  simp at heq

/-- The watch that counts is the one that is armed now, or the one that has counted. -/
theorem current_cons : Current (e :: h) n ↔
    (e.armed?.isSome = true ∧ (armedFor h).length = n) ∨ (e.retires = false ∧ Current h n) := by
  constructor
  · rintro ⟨later, e', earlier, heq, harmed, hn, hlater⟩
    obtain ⟨rfl, heq⟩ | ⟨later, rfl, rfl⟩ := List.cons_eq_append_iff.mp heq
    · obtain ⟨rfl, rfl⟩ := List.cons.inj heq
      exact .inl ⟨harmed, hn⟩
    · obtain ⟨hstays, hlater⟩ := List.forall_mem_cons.mp hlater
      exact .inr ⟨hstays, later, e', earlier, rfl, harmed, hn, hlater⟩
  · rintro (⟨harmed, hn⟩ | ⟨hstays, later, e', earlier, rfl, harmed, hn, hlater⟩)
    · exact ⟨[], e, h, rfl, harmed, hn, by simp⟩
    · exact ⟨e :: later, e', earlier, rfl, harmed, hn, List.forall_mem_cons.mpr ⟨hstays, hlater⟩⟩

theorem retires_of_armed (harmed : e.armed?.isSome = true) : e.retires = true := by
  unfold WatchMoment.armed? at harmed
  unfold WatchMoment.retires
  split at harmed
  · rename_i inst hdeed
    rw [hdeed]
  · cases harmed

theorem current_unique (hn : Current h n) (hm : Current h m) : n = m := by
  induction h with
  | nil => exact absurd hn current_nil
  | cons e h ih =>
      obtain ⟨harmed, rfl⟩ | ⟨hstays, hn⟩ := current_cons.mp hn
      · obtain ⟨-, rfl⟩ | ⟨hstays, -⟩ := current_cons.mp hm
        · rfl
        · rw [retires_of_armed harmed] at hstays
          cases hstays
      · obtain ⟨harmed, -⟩ | ⟨-, hm⟩ := current_cons.mp hm
        · rw [retires_of_armed harmed] at hstays
          cases hstays
        · exact ih hn hm

end History

/-! ### What is counted and told -/

namespace World

/-- How often a healing was reported. -/
def healings (w : World) : Nat := w.log.countP fun x => x.2 = .healed

variable (w : World)

theorem healings_note (h : Happening) :
    (w.note h).healings = w.healings + if h = .healed then 1 else 0 := by
  simp [healings, note, List.countP_cons]

@[simp] theorem heals_warn (text : String) :
    (w.warn text).healings = w.healings ∧ (w.warn text).metrics = w.metrics :=
  ⟨by simp [warn, healings_note], rfl⟩

@[simp] theorem heals_persist (complaint : String)
    (write : Store → Except Store.StoreError Store) :
    (w.persist complaint write).healings = w.healings ∧
      (w.persist complaint write).metrics = w.metrics := by
  unfold persist
  cases w.store with
  | none => exact ⟨rfl, rfl⟩
  | some store =>
      simp only
      split
      · exact ⟨rfl, rfl⟩
      · exact heals_warn _ _

@[simp] theorem heals_emit (project : Option String) (e : Event) :
    (w.emit project e).healings = w.healings ∧ (w.emit project e).metrics = w.metrics := by
  have hjournal : (w.journal project e).healings = w.healings ∧
      (w.journal project e).metrics = w.metrics := by
    unfold journal
    split
    · exact heals_persist ..
    · exact ⟨rfl, rfl⟩
  have hline (w : World) (l : LogLine) :
      (w.logLine l).healings = w.healings ∧ (w.logLine l).metrics = w.metrics := by
    unfold logLine
    split
    · exact heals_warn ..
    · exact ⟨rfl, rfl⟩
  obtain ⟨hhealings, hmetrics⟩ := hline (w.journal project e) e.line
  exact ⟨by simp [emit, healings_note, hhealings, hjournal.1], hmetrics.trans hjournal.2⟩

@[simp] theorem heals_count (c : Counter) :
    (w.count c).healings = w.healings ∧ (w.count c).metrics = w.metrics.count c := ⟨rfl, rfl⟩

@[simp] theorem heals_ask {α : Type} (task : Task) (client : Client)
    (request : ControlPlane.Request)
    (take : ControlPlane.Script → ControlPlane.Reply α × ControlPlane.Script) :
    (w.ask task client request take).2.healings = w.healings ∧
      (w.ask task client request take).2.metrics = w.metrics :=
  ⟨by simp [ask, healings, note], rfl⟩

end World

@[simp] theorem Site.heals_connect (s : Site) :
    s.connect.2.world.healings = s.world.healings ∧
      s.connect.2.world.metrics = s.world.metrics := by
  unfold connect
  split
  · exact ⟨rfl, rfl⟩
  · exact ⟨by simp [World.healings, World.note], rfl⟩

namespace Monitor

variable {hs : Healers} {n : Nat} {s s' : Site} {m m' : Monitor} {heals : Bool} {w : Watch}

/-- A step of a watch takes the watch that counts away, counts a healing and tells of it, or does
none of this. -/
structure Tells (inst : InstanceId) (heals : Bool) (s s' : Site) (m m' : Monitor) : Prop where
  armed : m'.armed = if heals then none else m.armed
  counted : s'.world.metrics.selfHeals = s.world.metrics.selfHeals + heals.toNat
  told : s'.world.events = s.world.events ++ if heals then [.selfHealTriggered inst] else []
  healings : s'.world.healings = s.world.healings

theorem tells_of_step (h : m.step hs n s = some (s', m', heals)) :
    ∃ w, m.watches[n]? = some w ∧ Tells w.inst heals s s' m m' := by
  obtain ⟨w, hw, hsteps⟩ := stepsFrom_of_step h
  refine ⟨w, hw, ?_⟩
  cases hsteps with
  | stops due unhealthy sleeping cancelled goes =>
      simp only [Prod.mk.injEq] at goes
      obtain ⟨rfl, rfl, rfl⟩ := goes
      exact ⟨by simp, by simp, by simp, rfl⟩
  | ticks due unhealthy sleeping going goes =>
      simp only [tick, Prod.mk.injEq] at goes
      obtain ⟨rfl, rfl, rfl⟩ := goes
      exact ⟨by simp, by simp [World.askStatus], by simp [World.askStatus],
        by simp [World.askStatus]⟩
  | answered next unhealthy reply asking goes =>
      unfold Monitor.answered trigger at goes
      simp only at goes
      repeat' split at goes
      all_goals
        simp only [Prod.mk.injEq] at goes
        obtain ⟨rfl, rfl, rfl⟩ := goes
        constructor <;> simp [Metrics.count]

/-- The instances of the watches, and what the watches are doing. -/
def faces (m : Monitor) : List (InstanceId × WatchStage) := m.watches.map fun w => (w.inst, w.stage)

@[simp] theorem faces_disarm : m.disarm.faces = m.faces := by
  unfold disarm faces
  split
  · exact State.map_modify_of_eq (by simp) _ _
  · rfl

@[simp] theorem faces_close : m.close.faces = m.faces := by
  simp [close, faces]

@[simp] theorem faces_arm (inst : InstanceId) (now : Nat) :
    (m.arm inst now).faces = m.faces ++ [(inst, firstStage m.period now)] := by
  have hdisarm : m.disarm.watches.map (fun w => (w.inst, w.stage)) = m.faces := faces_disarm
  have hperiod : m.disarm.period = m.period := by
    unfold disarm
    split <;> rfl
  simp only [faces, arm, List.map_append, List.map_cons, List.map_nil, hdisarm, hperiod]

theorem faces_setStage (stage : WatchStage) :
    (m.setStage n stage).faces = m.faces.modify n fun f => (f.1, stage) := by
  refine List.ext_getElem? fun i => ?_
  simp only [faces, setStage, List.getElem?_map, List.getElem?_modify, Option.map_eq_map,
    Option.map_map]
  congr 1
  funext w
  simp only [Function.comp]
  split <;> rfl

/-- A count of answers in a row starts anew after `2 ^ 32` of them. -/
theorem needed_le_iff (k : Nat) :
    m.needed ≤ .ofNat k ↔ max m.threshold.toNat 1 ≤ k % UInt32.size := by
  have hneeded : m.needed.toNat = max m.threshold.toNat 1 := by
    rw [Nat.max_def]
    exact apply_ite UInt32.toNat (m.threshold ≤ 1) 1 m.threshold
  rw [UInt32.le_iff_toNat_le, hneeded, UInt32.toNat_ofNat']

/-- An answer that makes the `n`-th watch ask for healing, if `unhealthy` answers in a row say
unhealthy, this one included. -/
structure Provokes (hs : Healers) (n : Nat) (m : Monitor) (unhealthy : Nat)
    (answer : Except Fault InstanceStatus) : Prop where
  sick : verdict? answer = some false
  enough : max m.threshold.toNat 1 ≤ unhealthy % UInt32.size
  present : hs.present = true
  undebugged : hs.debugging = false
  counts : m.armed = some n

/-- What a watch does at an answer: it counts the answer, or asks for healing. -/
inductive Answered (hs : Healers) (n : Nat) (m : Monitor)
    (answers : List (Except Fault InstanceStatus)) (answer : Except Fault InstanceStatus) :
    Monitor → Bool → Prop
  | counts (stage : WatchStage) (counts : stage.Counts (unhealthyRun (answer :: answers)))
      (calm : ¬ Provokes hs n m (unhealthyRun (answer :: answers)) answer) :
      Answered hs n m answers answer (m.setStage n stage) false
  | heals (provokes : Provokes hs n m (unhealthyRun (answer :: answers)) answer) :
      Answered hs n m answers answer { m.setStage n .stopped with armed := none } true

section Verdicts

variable {next : Nat} {unhealthy : UInt32} {answer : Except Fault InstanceStatus}
  {answers : List (Except Fault InstanceStatus)}

theorem answered_of_silence (hv : verdict? answer = none) :
    ∃ s₁, answered hs n w next unhealthy answer s m =
      (s₁, m.setStage n (.sleeping next unhealthy), false) := by
  unfold answered
  cases answer with
  | error fault => exact ⟨_, rfl⟩
  | ok status =>
      have hsuccess : status.success = false := by simpa [verdict?] using hv
      exact ⟨s.warn "health check returned no status", by
        simp only [hsuccess, Bool.not_false, if_true]⟩

theorem answered_of_healthy (hv : verdict? answer = some true) :
    answered hs n w next unhealthy answer s m =
      (s, m.setStage n (.sleeping next 0), false) := by
  unfold answered
  cases answer with
  | error fault => cases hv
  | ok status =>
      obtain ⟨hsuccess, hhealthy⟩ : status.success = true ∧ status.isHealthy = true := by
        simpa [verdict?] using hv
      simp only [hsuccess, hhealthy, Bool.not_true, Bool.false_eq_true, if_false, if_true]

theorem answered_of_sick (hv : verdict? answer = some false) :
    answered hs n w next unhealthy answer s m =
      if unhealthy + 1 < m.needed then (s, m.setStage n (.sleeping next (unhealthy + 1)), false)
      else if !hs.present then (s, m.setStage n .stopped, false)
      else if hs.debugging then (s, m.setStage n (.sleeping next (unhealthy + 1)), false)
      else trigger n w s m := by
  unfold answered
  cases answer with
  | error fault => cases hv
  | ok status =>
      obtain ⟨hsuccess, hhealthy⟩ : status.success = true ∧ status.isHealthy = false := by
        simpa [verdict?] using hv
      simp only [hsuccess, hhealthy, Bool.not_true, Bool.false_eq_true, if_false]

theorem answered_of_answered
    (h : answered hs n w next (.ofNat (unhealthyRun answers)) answer s m = (s', m', heals)) :
    Answered hs n m answers answer m' heals := by
  have hrun := unhealthyRun_cons answer answers
  cases hv : verdict? answer with
  | none =>
      obtain ⟨s₁, hs₁⟩ : ∃ s₁, answered hs n w next (.ofNat (unhealthyRun answers)) answer s m =
          _ := answered_of_silence hv
      obtain ⟨-, rfl, rfl⟩ : _ ∧ _ ∧ _ := by simpa only [Prod.mk.injEq] using hs₁.symm.trans h
      rw [hv] at hrun
      exact .counts _ (congrArg UInt32.ofNat hrun.symm) fun hp => by simp [hp.sick] at hv
  | some healthy =>
      rw [hv] at hrun
      cases healthy with
      | true =>
          rw [answered_of_healthy hv] at h
          obtain ⟨-, rfl, rfl⟩ : _ ∧ _ ∧ _ := by simpa only [Prod.mk.injEq] using h
          exact .counts _ (congrArg UInt32.ofNat hrun.symm) fun hp => by simp [hp.sick] at hv
      | false =>
          have hnext : UInt32.ofNat (unhealthyRun answers) + 1 =
              .ofNat (unhealthyRun (answer :: answers)) := by
            rw [hrun, UInt32.ofNat_add]
            rfl
          rw [answered_of_sick hv, hnext] at h
          split at h
          · rename_i hfew
            obtain ⟨-, rfl, rfl⟩ : _ ∧ _ ∧ _ := by simpa only [Prod.mk.injEq] using h
            refine .counts _ rfl fun hp => ?_
            exact absurd hfew (UInt32.not_lt.mpr ((needed_le_iff _).mpr hp.enough))
          · rename_i hmany
            have henough := (needed_le_iff _).mp (UInt32.not_lt.mp hmany)
            split at h
            · rename_i hgone
              obtain ⟨-, rfl, rfl⟩ : _ ∧ _ ∧ _ := by simpa only [Prod.mk.injEq] using h
              exact .counts _ trivial fun hp => by simp [hp.present] at hgone
            · rename_i hpresent
              split at h
              · rename_i hdebugging
                obtain ⟨-, rfl, rfl⟩ : _ ∧ _ ∧ _ := by simpa only [Prod.mk.injEq] using h
                exact .counts _ rfl fun hp => by simp [hp.undebugged] at hdebugging
              · rename_i hdebugging
                unfold trigger at h
                simp only at h
                split at h
                · rename_i hcounts
                  obtain ⟨-, rfl, rfl⟩ : _ ∧ _ ∧ _ := by simpa only [Prod.mk.injEq] using h
                  exact .heals ⟨hv, henough, by simpa using hpresent,
                    by simpa using hdebugging, of_decide_eq_true hcounts⟩
                · rename_i hcounts
                  obtain ⟨-, rfl, rfl⟩ : _ ∧ _ ∧ _ := by simpa only [Prod.mk.injEq] using h
                  exact .counts _ trivial fun hp => hcounts (decide_eq_true hp.counts)

end Verdicts

/-- A step of a watch that has counted its answers goes by the next answer, or there is none and it
asks for nothing. -/
theorem answered_of_step {answers : List (Except Fault InstanceStatus)}
    (h : m.step hs n s = some (s', m', heals)) (hw : m.watches[n]? = some w)
    (hcounts : w.stage.Counts (unhealthyRun answers)) :
    (∃ answer, w.stage.answer? = some answer ∧ Answered hs n m answers answer m' heals) ∨
      ∃ stage : WatchStage, w.stage.answer? = none ∧ stage.Counts (unhealthyRun answers) ∧
        m' = m.setStage n stage ∧ heals = false := by
  obtain ⟨w', hw', hsteps⟩ := stepsFrom_of_step h
  obtain rfl := Option.some.inj (hw.symm.trans hw')
  cases hsteps with
  | stops due unhealthy sleeping cancelled goes =>
      simp only [Prod.mk.injEq] at goes
      obtain ⟨-, rfl, rfl⟩ := goes
      exact .inr ⟨.stopped, by rw [sleeping]; rfl, trivial, rfl, rfl⟩
  | ticks due unhealthy sleeping going goes =>
      simp only [tick, Prod.mk.injEq] at goes
      obtain ⟨-, rfl, rfl⟩ := goes
      rw [sleeping] at hcounts ⊢
      exact .inr ⟨.asking _ unhealthy _, rfl, hcounts, rfl, rfl⟩
  | answered next unhealthy reply asking goes =>
      rw [asking] at hcounts ⊢
      obtain rfl : unhealthy = .ofNat (unhealthyRun answers) := hcounts
      exact .inl ⟨reply.result, rfl, answered_of_answered goes⟩

/-- A step of a watch is a step of this watch only, and it counts the answer if there is one. -/
theorem faces_of_step {answers : List (Except Fault InstanceStatus)}
    (h : m.step hs n s = some (s', m', heals)) (hw : m.watches[n]? = some w)
    (hcounts : w.stage.Counts (unhealthyRun answers)) :
    ∃ stage : WatchStage, m'.faces = m.faces.modify n (fun f => (f.1, stage)) ∧
      stage.Counts (unhealthyRun (w.stage.answer?.toList ++ answers)) := by
  obtain ⟨answer, ha, hanswered⟩ | ⟨stage, ha, hstage, hmonitor, -⟩ :=
    answered_of_step h hw hcounts
  · rw [ha]
    cases hanswered with
    | counts stage counts => exact ⟨stage, faces_setStage stage, counts⟩
    | heals => exact ⟨.stopped, faces_setStage .stopped, trivial⟩
  · rw [ha, hmonitor]
    exact ⟨stage, faces_setStage stage, hstage⟩

end Monitor

/-! ### What a history comes to -/

namespace State

variable {s t u : State} {h : List WatchMoment} {d : WatchDeed} {n : Nat}

/-- The watches are those of the instances that the monitor was armed for, each has counted its
answers, and the watch that counts is the one that does so by the history. -/
structure Tended (h : List WatchMoment) (m : Monitor) : Prop where
  watched : m.faces.map (·.1) = armedFor h
  counts : ∀ (n : Nat) (inst : InstanceId) (stage : WatchStage),
    m.faces[n]? = some (inst, stage) → stage.Counts (unhealthyRun (answersTo n h))
  unasked : ∀ n, m.faces.length ≤ n → answersTo n h = []
  current : ∀ n, m.armed = some n ↔ Current h n

theorem answersTo_of_other (other : ∀ m, d ≠ .step m) :
    answersTo n (⟨s, d⟩ :: h) = answersTo n h := by
  have hnone : WatchMoment.answer? n ⟨s, d⟩ = none := by
    unfold WatchMoment.answer?
    split
    · rename_i m hdeed
      exact absurd hdeed (other m)
    · rfl
  exact List.filterMap_cons_none hnone

/-- At a step of a watch its answer is added to those that it went by, if there is one. -/
theorem answersTo_of_step {w : Watch} (hw : s.self.monitor.watches[n]? = some w) (k : Nat) :
    answersTo k (⟨s, .step n⟩ :: h) =
      (if n = k then w.stage.answer?.toList else []) ++ answersTo k h := by
  unfold answersTo
  rw [List.filterMap_cons]
  by_cases hk : n = k
  · subst hk
    cases ha : w.stage.answer? <;> simp [WatchMoment.answer?, hw, ha]
  · simp [WatchMoment.answer?, hk]

theorem Tended.arm {inst : InstanceId} (ht : Tended h s.self.monitor) :
    Tended (⟨s, .arm inst⟩ :: h) (s.self.monitor.arm inst s.world.now) := by
  have hlength : (armedFor h).length = s.self.monitor.faces.length := by
    rw [← ht.watched, List.length_map]
  have hanswers (n : Nat) : answersTo n (⟨s, .arm inst⟩ :: h) = answersTo n h :=
    answersTo_of_other (by simp)
  refine ⟨?_, fun n i stage hn => ?_, fun n hn => ?_, fun n => ?_⟩
  · rw [Monitor.faces_arm, List.map_append, ht.watched, armedFor_cons]
    rfl
  · rw [hanswers]
    rw [Monitor.faces_arm] at hn
    obtain hn | ⟨rfl, hnew⟩ := of_getElem?_concat hn
    · exact ht.counts n i stage hn
    · rw [ht.unasked _ (Nat.le_refl _), (Prod.mk.inj hnew).2, Monitor.firstStage]
      split
      · trivial
      · rfl
  · rw [Monitor.faces_arm, List.length_append, List.length_singleton] at hn
    rw [hanswers]
    exact ht.unasked n (by omega)
  · rw [(s.self.monitor.arm_frame inst s.world.now).1, Option.some.injEq, current_cons, hlength]
    simp [WatchMoment.armed?, WatchMoment.retires, Monitor.faces]

/-- What is done to the flags of the watches does not show, but in which watch counts. -/
theorem Tended.of_faces {m : Monitor} (ht : Tended h s.self.monitor) (other : ∀ n, d ≠ .step n)
    (unarmed : WatchMoment.armed? ⟨s, d⟩ = none) (faces : m.faces = s.self.monitor.faces)
    (armed : m.armed =
      if WatchMoment.retires ⟨s, d⟩ then none else s.self.monitor.armed) :
    Tended (⟨s, d⟩ :: h) m := by
  refine ⟨?_, fun n i stage hn => ?_, fun n hn => ?_, fun n => ?_⟩
  · rw [faces, ht.watched, armedFor_cons, unarmed]
    simp
  · rw [answersTo_of_other other]
    exact ht.counts n i stage (faces ▸ hn)
  · rw [answersTo_of_other other]
    exact ht.unasked n (faces ▸ hn)
  · rw [armed, current_cons, unarmed, ← ht.current n]
    cases WatchMoment.retires ⟨s, d⟩ <;> simp

theorem step_of_stepWatch (hp : s.stepWatch n = some u) :
    ∃ site heals, s.self.monitor.step s.self.healers n s.toSite =
        some (site, u.self.monitor, heals) ∧
      Moment.heals ⟨s, .step (.watch n)⟩ = heals ∧
      u =
        let v : State := { toSite := site, self := { s.self with monitor := u.self.monitor } }
        if heals then v.heal else v := by
  unfold stepWatch at hp
  cases hstep : s.self.monitor.step s.self.healers n s.toSite with
  | none => simp [hstep] at hp
  | some r =>
      obtain ⟨site, monitor, heals⟩ := r
      simp only [hstep, Option.some.injEq] at hp
      have hmonitor : u.self.monitor = monitor := by
        rw [← hp]
        split <;> simp
      subst hmonitor
      exact ⟨site, heals, rfl, by simp only [Moment.heals, hstep], hp.symm⟩

theorem Tended.step (ht : Tended h s.self.monitor) (hp : s.stepWatch n = some u) :
    Tended (⟨s, .step n⟩ :: h) u.self.monitor := by
  obtain ⟨site, heals, hstep, hheals, -⟩ := step_of_stepWatch hp
  obtain ⟨w, hw, htells⟩ := Monitor.tells_of_step hstep
  have hface : s.self.monitor.faces[n]? = some (w.inst, w.stage) := by
    simp [Monitor.faces, hw]
  have hanswers := answersTo_of_step (h := h) hw
  obtain ⟨stage, hfaces, hcounts⟩ :=
    Monitor.faces_of_step hstep hw (ht.counts n w.inst w.stage hface)
  refine ⟨?_, fun k i st hk => ?_, fun k hk => ?_, fun k => ?_⟩
  · rw [armedFor_cons, hfaces, ← ht.watched]
    exact (map_modify_of_eq (by simp) _ _).trans (List.append_nil _).symm
  · rw [hfaces, List.getElem?_modify, Option.map_eq_map] at hk
    obtain ⟨f, hf, heq⟩ := Option.map_eq_some_iff.mp hk
    by_cases hn : n = k
    · subst hn
      rw [if_pos rfl] at heq
      rw [← (Prod.mk.inj heq).2, hanswers, if_pos rfl]
      exact hcounts
    · rw [if_neg hn] at heq
      rw [hanswers, if_neg hn, List.nil_append]
      exact ht.counts k i st (hf.trans (congrArg some heq))
  · rw [hfaces, List.length_modify] at hk
    have hlt : n < s.self.monitor.faces.length := (List.getElem?_eq_some_iff.mp hface).1
    rw [hanswers, if_neg (by omega), List.nil_append]
    exact ht.unasked k hk
  · have hretires : WatchMoment.retires ⟨s, .step n⟩ = heals := hheals
    have hunarmed : WatchMoment.armed? ⟨s, .step n⟩ = none := rfl
    rw [htells.armed, current_cons, hunarmed, hretires, ← ht.current k]
    cases heals <;> simp

theorem tended_of_tends (ht : Tended h s.self.monitor) (hd : s.Tends d u) :
    Tended (⟨s, d⟩ :: h) u.self.monitor := by
  cases hd with
  | arm inst =>
      rw [(s.arm_frame inst).1]
      exact ht.arm
  | disarm => exact ht.of_faces (by simp) rfl (by simp [State.disarm]) (by simp [State.disarm,
      WatchMoment.retires])
  | close => exact ht.of_faces (by simp) rfl (by simp [closeSelf]) (by simp [closeSelf,
      WatchMoment.retires, WatchMoment.heals])
  | step n hp => exact ht.step hp
  | elsewhere hmonitor =>
      rw [hmonitor]
      exact ht.of_faces (by simp) rfl rfl (by simp [WatchMoment.retires, WatchMoment.heals])

theorem tended_of_watchTrace (unwatched : s.self.monitor.watches = [])
    (unarmed : s.self.monitor.armed = none) (ht : WatchTrace s h t) :
    Tended h t.self.monitor := by
  induction ht with
  | start =>
      refine ⟨?_, ?_, fun _ _ => rfl, fun n => ?_⟩
      · simp [Monitor.faces, unwatched, armedFor]
      · simp [Monitor.faces, unwatched]
      · rw [unarmed]
        simpa using current_nil
  | step _ hd ih => exact tended_of_tends ih hd

/-- To ask for healing takes the watch away that counts, and only to arm the monitor gives it
one. -/
theorem heals_le_of_tends (hd : s.Tends d u) :
    (WatchMoment.heals ⟨s, d⟩).toNat + u.self.monitor.armed.toList.length ≤
      s.self.monitor.armed.toList.length + (WatchMoment.armed? ⟨s, d⟩).toList.length := by
  cases hd with
  | arm inst => simp [WatchMoment.heals, WatchMoment.armed?]
  | disarm => simp [WatchMoment.heals, State.disarm]
  | close => simp [WatchMoment.heals, closeSelf]
  | elsewhere hmonitor => simp [WatchMoment.heals, hmonitor]
  | step n hp =>
      obtain ⟨site, heals, hstep, hheals, -⟩ := step_of_stepWatch hp
      obtain ⟨w, -, hticks⟩ := Monitor.ticks_of_step hstep
      rw [show WatchMoment.heals ⟨s, .step n⟩ = heals from hheals]
      generalize u.self.monitor = m' at hticks
      cases hticks with
      | stays stage => simp
      | heals asking present counts => simp [counts]

theorem heals_le_arms (unarmed : s.self.monitor.armed = none) (ht : WatchTrace s h t) :
    h.countP (·.heals) + t.self.monitor.armed.toList.length ≤ (armedFor h).length := by
  induction ht with
  | start => simp [unarmed, armedFor]
  | @step h t u d _ hd ih =>
      have hstep := heals_le_of_tends hd
      have hcount : (⟨t, d⟩ :: h).countP (·.heals) =
          h.countP (·.heals) + (WatchMoment.heals ⟨t, d⟩).toNat := by
        rw [List.countP_cons]
        cases WatchMoment.heals ⟨t, d⟩ <;> rfl
      rw [armedFor_cons, List.length_append, hcount]
      omega

/-! ### What a watch asks for -/

/-- How often healing was asked for: by calls to deploy, or by reports. -/
def healsAsked (s : State) : Nat := s.self.callers.countP (·.heal) + s.world.healings

/-- A healing is counted, told and asked for once each and the monitor is disarmed, or nothing of
this is done. -/
structure Heeds (s u : State) (inst : InstanceId) (heals : Bool) : Prop where
  armed : u.self.monitor.armed = if heals then none else s.self.monitor.armed
  counted : u.world.metrics.selfHeals = s.world.metrics.selfHeals + heals.toNat
  told : u.world.events = s.world.events ++ if heals then [.selfHealTriggered inst] else []
  asked : u.healsAsked = s.healsAsked + heals.toNat

theorem healsAsked_heal (present : s.self.healer ≠ .gone) :
    s.heal.healsAsked = s.healsAsked + 1 ∧ s.heal.world.metrics = s.world.metrics := by
  unfold heal
  cases hhealer : s.self.healer with
  | gone => exact absurd hhealer present
  | reports =>
      refine ⟨?_, rfl⟩
      simp only [healsAsked, mapWorld_frame, World.healings_note]
      rfl
  | deploys =>
      have hwake (w : World) (number : Nat) (task : Task) :
          (w.wake number task).healings = w.healings ∧
            (w.wake number task).metrics = w.metrics := by
        unfold World.wake
        split <;> exact ⟨rfl, rfl⟩
      refine ⟨?_, (hwake ..).2⟩
      simp only [healsAsked, wake_frame, (hwake ..).1, addCaller, mapSelf_frame, List.countP_append]
      simp
      omega

theorem heeds_of_stepWatch (hp : s.stepWatch n = some u) :
    ∃ w heals, s.self.monitor.watches[n]? = some w ∧ s.Heeds u w.inst heals ∧
      Moment.heals ⟨s, .step (.watch n)⟩ = heals := by
  obtain ⟨site, heals, hstep, hheals, hu⟩ := step_of_stepWatch hp
  obtain ⟨w, hw, htells⟩ := Monitor.tells_of_step hstep
  obtain ⟨w', hw', hticks⟩ := Monitor.ticks_of_step hstep
  refine ⟨w, heals, hw, ?_, hheals⟩
  cases heals with
  | false =>
      rw [hu]
      exact ⟨htells.armed, htells.counted, htells.told, by
        simpa [healsAsked] using htells.healings⟩
  | true =>
      have present : s.self.healer ≠ .gone := by
        generalize u.self.monitor = m' at hticks
        cases hticks with
        | heals asking present counts => simpa [Orchestrator.healers] using present
      obtain ⟨hasked, hmetrics⟩ := healsAsked_heal
        (s := { toSite := site, self := { s.self with monitor := u.self.monitor } }) present
      rw [if_pos rfl] at hu
      have hmetrics : u.world.metrics = site.world.metrics :=
        (congrArg (fun v : State => v.world.metrics) hu).trans hmetrics
      have hevents : u.world.events = site.world.events :=
        (congrArg (fun v : State => v.world.events) hu).trans (by simp)
      refine ⟨htells.armed, hmetrics ▸ htells.counted, hevents ▸ htells.told, ?_⟩
      rw [(congrArg healsAsked hu).trans hasked]
      simp [healsAsked, htells.healings]

/-- The watches are those of the instances that the monitor was armed for, at most one of them
counts, and the monitor asks for healing no more often than it was armed.  A watch goes by every
answer that has come.  It asks for healing, once, exactly if it counts then and the answer provokes
that. -/
theorem heals_of_watch (unwatched : s.self.monitor.watches = [])
    (unarmed : s.self.monitor.armed = none) (ht : WatchTrace s h t) :
    t.self.monitor.watches.map (·.inst) = armedFor h ∧
      (∀ n, t.self.monitor.armed = some n ↔ Current h n) ∧
      (∀ n m, Current h n → Current h m → n = m) ∧
      h.countP (·.heals) ≤ (armedFor h).length ∧
      (∀ n w next unhealthy reply, t.self.monitor.watches[n]? = some w →
        w.stage = .asking next unhealthy reply → reply.due ≤ t.world.now →
          ∃ u, t.stepWatch n = some u) ∧
      ∀ n u, t.stepWatch n = some u →
        ∃ w heals, t.self.monitor.watches[n]? = some w ∧ t.Heeds u w.inst heals ∧
          WatchMoment.heals ⟨t, .step n⟩ = heals ∧
          (heals = true ↔ ∃ answer, w.stage.answer? = some answer ∧ Current h n ∧
            Monitor.Provokes t.self.healers n t.self.monitor
              (unhealthyRun (answer :: answersTo n h)) answer) := by
  have htended := tended_of_watchTrace unwatched unarmed ht
  refine ⟨?_, htended.current, fun n m => current_unique, ?_, ?_, fun n u hu => ?_⟩
  · rw [← htended.watched, Monitor.faces, List.map_map]
    rfl
  · have := heals_le_arms unarmed ht
    omega
  · intro n w next unhealthy reply hw hasking hlate
    unfold stepWatch Monitor.step
    simp only [hw, hasking, hlate, if_true]
    exact ⟨_, rfl⟩
  · obtain ⟨w, heals, hw, hheeds, hheals⟩ := heeds_of_stepWatch hu
    obtain ⟨site, heals', hstep, hheals', -⟩ := step_of_stepWatch hu
    obtain rfl : heals' = heals := hheals'.symm.trans hheals
    have hcounts := htended.counts n w.inst w.stage (by simp [Monitor.faces, hw])
    refine ⟨w, _, hw, hheeds, hheals, ?_⟩
    obtain ⟨answer, ha, hanswered⟩ | ⟨stage, ha, -, -, hcalm⟩ :=
      Monitor.answered_of_step hstep hw hcounts
    · rw [ha]
      generalize u.self.monitor = m' at hanswered
      cases hanswered with
      | counts stage _ calm => simp [calm]
      | heals provokes => simp [provokes, ← htended.current n, provokes.counts]
    · simp [ha, hcalm]

/-- An orchestrator whose first status is unhealthy and takes five seconds. -/
def sickly : State :=
  .start 0 none {} {} []
    { script := { status := [⟨5000, .ok { success := true, isHealthy := false }⟩] } }

/-- Time passes. -/
def pass (millis : Nat) (s : State) : State := s.mapWorld fun w => { w with now := w.now + millis }

/-- A watch asks at its first tick. -/
def firstTick : Option State := ((sickly.arm ⟨"run-1"⟩).pass 30000).stepWatch 0

/-- The monitor is shut down a second later, and the answer comes after that. -/
def lateAnswer (s : State) : State := (s.pass 1000).close.pass 4000

/-- The shutdown, and what went before it. -/
def historyOfShutdown (s : State) : List WatchMoment :=
  [⟨(s.pass 1000).close, .elsewhere⟩, ⟨s.pass 1000, .close⟩, ⟨s, .elsewhere⟩,
    ⟨(sickly.arm ⟨"run-1"⟩).pass 30000, .step 0⟩, ⟨sickly.arm ⟨"run-1"⟩, .elsewhere⟩,
    ⟨sickly, .arm ⟨"run-1"⟩⟩]

theorem trace_shutdown : ∃ s u, WatchTrace sickly (historyOfShutdown s) (lateAnswer s) ∧
    (s.pass 1000).self.monitor.watches.length = 1 ∧ (lateAnswer s).stepWatch 0 = some u ∧
    (lateAnswer s).healsAsked = 0 ∧ u.healsAsked = 1 := by
  have hasked : (firstTick.map fun s => ((s.pass 1000).self.monitor.watches.length,
      (lateAnswer s).healsAsked, ((lateAnswer s).stepWatch 0).map healsAsked)) =
        some (1, 0, some 1) := by
    decide +kernel
  obtain ⟨s, hs, hv⟩ := Option.map_eq_some_iff.mp hasked
  obtain ⟨hlength, hbefore, hafter⟩ : _ ∧ _ ∧ _ := by simpa only [Prod.mk.injEq] using hv
  obtain ⟨u, hu, hafter⟩ := Option.map_eq_some_iff.mp hafter
  have ht := ((((((WatchTrace.start (s := sickly)).step (.arm ⟨"run-1"⟩)).step
    (.elsewhere (u := (sickly.arm ⟨"run-1"⟩).pass 30000) rfl)).step (.step 0 hs)).step
    (.elsewhere (u := s.pass 1000) rfl)).step .close).step
    (.elsewhere (u := lateAnswer s) rfl)
  exact ⟨s, u, ht, hlength, hu, hbefore, hafter⟩

/-- The answer to a watch that was shut down provokes a healing. -/
theorem heals_of_watch_of_shutdown : ∃ s u w answer,
    WatchTrace sickly (historyOfShutdown s) (lateAnswer s) ∧
    (lateAnswer s).stepWatch 0 = some u ∧ (lateAnswer s).Heeds u ⟨"run-1"⟩ true ∧
    (lateAnswer s).self.monitor.watches[0]? = some w ∧ w.stage.answer? = some answer ∧
    Current (historyOfShutdown s) 0 ∧
    Monitor.Provokes (lateAnswer s).self.healers 0 (lateAnswer s).self.monitor
      (unhealthyRun (answer :: answersTo 0 (historyOfShutdown s))) answer := by
  obtain ⟨s, u, ht, -, hu, hbefore, hafter⟩ := trace_shutdown
  obtain ⟨hwatches, -, -, -, -, hsteps⟩ := heals_of_watch (by rfl) (by rfl) ht
  obtain ⟨w, heals, hw, hheeds, -, hiff⟩ := hsteps 0 u hu
  have hheals : heals = true := by
    have hasked := hheeds.asked
    rw [hbefore, hafter] at hasked
    cases heals with
    | true => rfl
    | false => cases hasked
  subst hheals
  obtain ⟨answer, ha, hcurrent, hprovokes⟩ := hiff.mp rfl
  have hinst : w.inst = ⟨"run-1"⟩ := by
    have hfirst := congrArg (fun l : List InstanceId => l[0]?) hwatches
    simpa [hw, historyOfShutdown, armedFor, WatchMoment.armed?] using hfirst
  exact ⟨s, u, w, answer, ht, hu, hinst ▸ hheeds, hw, ha, hcurrent, hprovokes⟩

/-- A watch that was shut down can ask for healing. -/
theorem not_spared_of_close :
    ¬ ∀ (s t u : State) (h : List WatchMoment) (e : WatchMoment) (n : Nat),
      s.self.monitor.watches = [] → s.self.monitor.armed = none → WatchTrace s h t → e ∈ h →
      e.deed = .close → n < e.state.self.monitor.watches.length → t.stepWatch n = some u →
      u.healsAsked = t.healsAsked := by
  intro hclaim
  obtain ⟨s, u, ht, hlength, hu, hbefore, hafter⟩ := trace_shutdown
  have hspared := hclaim sickly (lateAnswer s) u _ ⟨s.pass 1000, .close⟩ 0 (by rfl) (by rfl) ht
    (by simp [historyOfShutdown]) rfl (by rw [hlength]; exact Nat.zero_lt_one) hu
  rw [hbefore, hafter] at hspared
  cases hspared

/-- Every run of an orchestrator is one of its monitor. -/
theorem exists_watchTrace {k : List Moment} (ht : Trace s k t) : ∃ h, WatchTrace s h t := by
  induction ht with
  | start => exact ⟨[], .start⟩
  | @step k t u a _ hp ih =>
      obtain ⟨h, hh⟩ := ih
      cases watching_of_perform hp with
      | arms n x success monitor =>
          unfold armedSelf at monitor
          split at monitor
          · exact ⟨_, (hh.step (.arm x.inst.id)).step (.elsewhere (by simpa using monitor))⟩
          · exact ⟨_, hh.step (.elsewhere monitor)⟩
      | ticks n w heals here ticks asks => exact ⟨_, hh.step (.step n hp)⟩
      | shuts going monitor =>
          exact ⟨_, ((hh.step .close).step .disarm).step
            (.elsewhere (by simpa [State.disarm, closeSelf] using monitor))⟩
      | closes idle monitor =>
          exact ⟨_, (hh.step .close).step (.elsewhere (by simpa [closeSelf] using monitor))⟩
      | stays idle monitor => exact ⟨_, hh.step (.elsewhere monitor)⟩

end State

end PreviewDeploy
