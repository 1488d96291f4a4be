import PreviewDeploy.Proofs.LoopStages

/-!
# The monitor in the course of a run

A watch that counts asks for healing and so takes itself away, a success can arm the monitor, and
to close the orchestrator cancels all watches; nothing else is done to the monitor
(`State.watching_of_perform`).  As long as an orchestrator is not closed there is somebody who
heals, and once it is closed none of its watches asks for that (`Orchestrator.Monitored`).
-/

namespace PreviewDeploy

/-- The watch is waiting for an answer. -/
def Watch.isAsking (w : Watch) : Bool :=
  match w.stage with
  | .asking .. => true
  | _ => false

namespace Monitor

variable {hs : Healers} {n : Nat} {s s' : Site} {m m' : Monitor} {heals : Bool} {w : Watch}

/-! ### One step of a watch -/

/-- How a watch goes on: it gets to another stage, or it takes itself away and asks for healing. -/
inductive Ticks (hs : Healers) (n : Nat) (w : Watch) (m : Monitor) : Monitor → Bool → Prop
  | stays (stage : WatchStage)
      (calm : (∃ next unhealthy reply, stage = .asking next unhealthy reply) →
        w.cancelled = false) : Ticks hs n w m (m.setStage n stage) false
  | heals (asking : w.isAsking = true) (present : hs.present = true)
      (counts : m.armed = some n) :
      Ticks hs n w m { m.setStage n .stopped with armed := none } true

theorem ticks_of_answered {next : Nat} {unhealthy : UInt32}
    {result : Except ControlPlane.Fault ControlPlane.InstanceStatus} (asking : w.isAsking = true)
    (h : answered hs n w next unhealthy result s m = (s', m', heals)) :
    Ticks hs n w m m' heals := by
  -- Whatever the answer, the watch does not ask again at once.
  have stays {stage : WatchStage} {t : Site} (hstage : ∀ i j r, stage ≠ .asking i j r)
      (h : (t, m.setStage n stage, false) = (s', m', heals)) : Ticks hs n w m m' heals := by
    simp only [Prod.mk.injEq] at h
    obtain ⟨-, rfl, rfl⟩ := h
    refine .stays stage ?_
    rintro ⟨i, j, r, hasking⟩
    exact absurd hasking (hstage i j r)
  unfold answered at h
  cases result with
  | error fault => exact stays (by simp) h
  | ok status =>
      simp only at h
      split at h
      · exact stays (by simp) h
      · split at h
        · exact stays (by simp) h
        · split at h
          · exact stays (by simp) h
          · split at h
            · exact stays (by simp) h
            · rename_i hpresent
              have present : hs.present = true := by simpa using hpresent
              split at h
              · exact stays (by simp) h
              · unfold trigger at h
                simp only at h
                split at h
                · rename_i hcounts
                  have counts : m.armed = some n := of_decide_eq_true hcounts
                  simp only [Prod.mk.injEq] at h
                  obtain ⟨-, rfl, rfl⟩ := h
                  exact .heals asking present counts
                · exact stays (by simp) h

theorem ticks_of_step (h : m.step hs n s = some (s', m', heals)) :
    ∃ w, m.watches[n]? = some w ∧ Ticks hs n w m m' heals := by
  obtain ⟨w, hw, hsteps⟩ := stepsFrom_of_step h
  refine ⟨w, hw, ?_⟩
  cases hsteps with
  | stops due unhealthy sleeping cancelled goes =>
      simp only [Prod.mk.injEq] at goes
      obtain ⟨-, rfl, rfl⟩ := goes
      exact .stays .stopped (by simp)
  | ticks due unhealthy sleeping going goes =>
      simp only [tick, Prod.mk.injEq] at goes
      obtain ⟨-, rfl, rfl⟩ := goes
      exact .stays _ fun _ => going
  | answered next unhealthy reply asking goes =>
      exact ticks_of_answered (by simp [Watch.isAsking, asking]) goes

end Monitor

namespace Moment

/-- A watch asks for healing at a moment. -/
def heals (e : Moment) : Bool :=
  match e.action with
  | .step (.watch n) =>
    match e.state.self.monitor.step e.state.self.healers n e.state.toSite with
    | some (_, _, heals) => heals
    | none => false
  | _ => false

/-- The orchestrator is shut down at a moment. -/
def shuts (e : Moment) : Bool :=
  match e.action with
  | .shutdown => !e.state.self.isClosed
  | _ => false

/-- Nothing happens at a moment that would change what is monitored. -/
structure Idle (e : Moment) : Prop where
  unsuccessful : e.success? = none
  calm : e.heals = false
  unshut : e.shuts = false

theorem idle_of_other {e : Moment} (loop : ∀ n, e.action ≠ .step (.loop n))
    (watch : ∀ n, e.action ≠ .step (.watch n)) (shutdown : e.action ≠ .shutdown) : e.Idle := by
  refine ⟨success?_of_other loop, ?_, ?_⟩
  · unfold heals
    split
    · rename_i n haction
      exact absurd haction (watch n)
    · rfl
  · unfold shuts
    split
    · rename_i haction
      exact absurd haction shutdown
    · rfl

end Moment

namespace State

variable {s t u : State} {a : Action} {h : List Moment} {n : Nat}

/-! ### What an action does to the monitor -/

/-- The monitor fares in one of five ways. -/
inductive Watching (s u : State) : Action → Prop
  | arms (n : Nat) (x : Execution)
      (success : Moment.success? ⟨s, .step (.loop n)⟩ = some (n, x))
      (monitor : u.self.monitor = (armedSelf x s.world.now s.self).monitor)
      (healer : u.self.healer = s.self.healer) : Watching s u (.step (.loop n))
  | ticks (n : Nat) (w : Watch) (heals : Bool) (here : s.self.monitor.watches[n]? = some w)
      (ticks : Monitor.Ticks s.self.healers n w s.self.monitor u.self.monitor heals)
      (asks : Moment.heals ⟨s, .step (.watch n)⟩ = heals)
      (callers : heals = true → u.self.callers = (healedSelf s.self).callers)
      (healer : u.self.healer = s.self.healer) : Watching s u (.step (.watch n))
  | shuts (going : s.self.isClosed = false)
      (monitor : u.self.monitor = s.self.monitor.close.disarm) : Watching s u .shutdown
  /-- Nobody holds the orchestrator any more. -/
  | closes {a : Action} (idle : Moment.Idle ⟨s, a⟩)
      (monitor : u.self.monitor = s.self.monitor.close) (healer : u.self.healer = .gone) :
      Watching s u a
  | stays {a : Action} (idle : Moment.Idle ⟨s, a⟩) (monitor : u.self.monitor = s.self.monitor)
      (healer : u.self.healer = s.self.healer) : Watching s u a

theorem Watching.of_leftSelf {o : Orchestrator} (idle : Moment.Idle ⟨s, a⟩)
    (self : u.self = leftSelf o) (monitor : o.monitor = s.self.monitor)
    (healer : o.healer = s.self.healer) : Watching s u a := by
  unfold leftSelf at self
  split at self
  · exact .closes idle (by rw [self, closeSelf, monitor]) (by rw [self])
  · exact .stays idle (by rw [self, monitor]) (by rw [self, healer])

theorem watching_of_stepWatch (hp : s.stepWatch n = some u) :
    Watching s u (.step (.watch n)) := by
  obtain ⟨site, monitor, heals, -, hself, -, -, -, -, -, hstep⟩ := stepWatch_cases hp
  obtain ⟨w, hw, hticks⟩ := Monitor.ticks_of_step hstep
  have asks : Moment.heals ⟨s, .step (.watch n)⟩ = heals := by
    simp only [Moment.heals, hstep]
  have hmonitor : u.self.monitor = monitor := by
    rw [hself]
    split <;> simp
  refine .ticks n w heals hw (hmonitor ▸ hticks) asks (fun hheals => ?_) ?_
  · rw [hself, if_pos hheals]
    unfold healedSelf
    split <;> rfl
  · rw [hself]
    split <;> simp

theorem watching_of_shutdown : Watching s s.shutdown .shutdown := by
  cases hclosed : s.self.isClosed with
  | true =>
      have hself := (shutdown_frame s).1
      rw [shutSelf, if_pos hclosed] at hself
      exact .stays ⟨rfl, rfl, by simp [Moment.shuts, hclosed]⟩ (by rw [hself]) (by rw [hself])
  | false => exact .shuts hclosed (by simp [shutSelf, hclosed])

theorem watching_of_perform (hp : s.perform a = some u) : Watching s u a := by
  cases deed_of_perform hp with
  | transaction n hstep =>
      obtain ⟨y, site, stage, -, -, hself, -⟩ := stepTransaction_cases hstep
      exact .stays (Moment.idle_of_other (by simp) (by simp) (by simp))
        (by simp [hself, advanceSelf, Orchestrator.setTransaction])
        (by simp [hself, advanceSelf, Orchestrator.setTransaction])
  | loop n hstep =>
      obtain ⟨hhealer, ⟨hmonitor, hnone⟩ | ⟨x, hsuccess, hmonitor⟩⟩ := monitor_of_stepLoop hstep
      · exact .stays ⟨hnone, rfl, rfl⟩ hmonitor hhealer
      · exact .arms n x hsuccess hmonitor hhealer
  | caller n hstep =>
      have idle : Moment.Idle ⟨s, .step (.caller n)⟩ :=
        Moment.idle_of_other (by simp) (by simp) (by simp)
      obtain ⟨c, -, hs⟩ := stepCaller_cases hstep
      cases hs with
      | refused => exact .of_leftSelf idle (answer_frame s n c none).1 rfl rfl
      | joins =>
          exact .stays idle (by simp [Orchestrator.setCaller]) (by simp [Orchestrator.setCaller])
      | starts =>
          exact .stays idle (by simp [Orchestrator.setCaller]) (by simp [Orchestrator.setCaller])
      | returns k since deadline starter waiting l loop outcome =>
          exact .of_leftSelf idle (answer_frame _ n c outcome).1 (by simp [Orchestrator.setCaller])
            (by simp [Orchestrator.setCaller])
      | expires k since deadline starter waiting l =>
          exact .of_leftSelf idle (answer_frame _ n c none).1 (by simp [Orchestrator.setCaller])
            (by simp [Orchestrator.setCaller])
  | watch n hstep => exact watching_of_stepWatch hstep
  | passes => exact .stays (Moment.idle_of_other (by simp) (by simp) (by simp)) rfl rfl
  | calls => exact .stays (Moment.idle_of_other (by simp) (by simp) (by simp)) rfl rfl
  | abandons n =>
      have idle : Moment.Idle ⟨s, .abandon n⟩ :=
        Moment.idle_of_other (by simp) (by simp) (by simp)
      have hself := (abandon_frame s n).1
      unfold abandonSelf at hself
      split at hself
      · exact .stays idle (by rw [hself]) (by rw [hself])
      · exact .stays idle (by rw [hself]) (by rw [hself])
      · exact .of_leftSelf idle hself rfl rfl
      · exact .of_leftSelf idle hself rfl rfl
  | shuts => exact watching_of_shutdown
  | releases =>
      exact .of_leftSelf (Moment.idle_of_other (by simp) (by simp) (by simp)) (release_frame s).1
        rfl rfl
  | sets other elapsed self =>
      by_cases ha : a = .shutdown
      · subst ha
        obtain rfl := Option.some.inj hp
        exact watching_of_shutdown
      · obtain ⟨setup, debugging, hself⟩ := self
        refine .stays ?_ (by rw [hself]) (by rw [hself])
        exact Moment.idle_of_other (fun n => other (.loop n)) (fun n => other (.watch n)) ha

end State

/-! ### Watches of a closed orchestrator -/

/-- The watch that counts is one of the watches, and there is somebody who heals; once the
orchestrator is closed all watches are cancelled, and none of them will ask for healing. -/
structure Orchestrator.Monitored (o : Orchestrator) : Prop where
  known : ∀ n, o.monitor.armed = some n → n < o.monitor.watches.length
  heeded : o.isClosed = false → o.healer = .deploys
  cancelled : o.isClosed = true → ∀ (n : Nat) (w : Watch), o.monitor.watches[n]? = some w →
    w.cancelled = true
  calm : o.isClosed = true → o.healer = .gone ∨ ∀ (n : Nat) (w : Watch),
    o.monitor.armed = some n → o.monitor.watches[n]? = some w → w.isAsking = false

namespace Monitor

variable {m : Monitor} {n : Nat} {w : Watch}

/-- A watch of a monitor that was disarmed is as before, but for its being cancelled. -/
theorem getElem?_disarm (h : m.disarm.watches[n]? = some w) :
    ∃ w', m.watches[n]? = some w' ∧ w.stage = w'.stage ∧
      (w'.cancelled = true → w.cancelled = true) := by
  unfold disarm at h
  split at h
  · simp only [cancel, List.getElem?_modify, Option.map_eq_map] at h
    obtain ⟨w', hw', rfl⟩ := Option.map_eq_some_iff.mp h
    refine ⟨w', hw', ?_⟩
    split
    · exact ⟨rfl, fun _ => rfl⟩
    · exact ⟨rfl, id⟩
  · exact ⟨w, h, rfl, id⟩

/-- A watch of a monitor that was armed is the new one, or one from before. -/
theorem getElem?_arm {inst : InstanceId} {now : Nat}
    (h : (m.arm inst now).watches[n]? = some w) :
    (n = m.watches.length ∧ w = ⟨inst, m.closed, firstStage m.period now⟩) ∨
      ∃ w', m.watches[n]? = some w' ∧ (w'.cancelled = true → w.cancelled = true) := by
  have hperiod : m.disarm.period = m.period := by
    unfold disarm
    split <;> rfl
  simp only [arm, disarm_frame, hperiod] at h
  rcases State.of_getElem?_concat h with h | ⟨hn, hw⟩
  · obtain ⟨w', hw', -, hcancelled⟩ := getElem?_disarm h
    exact .inr ⟨w', hw', hcancelled⟩
  · exact .inl ⟨by simpa using hn, hw⟩

theorem getElem?_setStage {stage : WatchStage} {k : Nat}
    (h : (m.setStage n stage).watches[k]? = some w) :
    ∃ w', m.watches[k]? = some w' ∧ w.cancelled = w'.cancelled ∧
      w.stage = if n = k then stage else w'.stage := by
  simp only [setStage, List.getElem?_modify, Option.map_eq_map] at h
  obtain ⟨w', hw', rfl⟩ := Option.map_eq_some_iff.mp h
  refine ⟨w', hw', ?_⟩
  split <;> exact ⟨rfl, rfl⟩

end Monitor

namespace State

variable {s t u : State} {a : Action} {h : List Moment} {n : Nat}

theorem monitored_of_same {o o' : Orchestrator} (ho : o.Monitored)
    (monitor : o'.monitor = o.monitor) (healer : o'.healer = o.healer) : o'.Monitored := by
  have hclosed : o'.isClosed = o.isClosed := by
    rw [Orchestrator.isClosed, monitor, Orchestrator.isClosed]
  refine ⟨?_, ?_, ?_, ?_⟩
  · rw [monitor]
    exact ho.known
  · rw [hclosed, healer]
    exact ho.heeded
  · rw [hclosed, monitor]
    exact ho.cancelled
  · rw [hclosed, healer, monitor]
    exact ho.calm

theorem monitored_of_armed {o o' : Orchestrator} {inst : InstanceId} {now : Nat}
    (ho : o.Monitored) (monitor : o'.monitor = o.monitor.arm inst now)
    (healer : o'.healer = o.healer) : o'.Monitored := by
  have hclosed : o'.isClosed = o.isClosed := by
    rw [Orchestrator.isClosed, monitor]
    simp [Orchestrator.isClosed]
  have harmed : o'.monitor.armed = some o.monitor.watches.length := by simp [monitor]
  have hlen : o'.monitor.watches.length = o.monitor.watches.length + 1 := by
    simp [monitor, Monitor.arm]
  refine ⟨fun n hn => ?_, fun h => ?_, fun h n w hw => ?_, fun h => .inr fun n w hn hw => ?_⟩
  · rw [harmed, Option.some.injEq] at hn
    omega
  · rw [healer]
    exact ho.heeded (hclosed ▸ h)
  · rw [monitor] at hw
    rcases Monitor.getElem?_arm hw with ⟨-, rfl⟩ | ⟨w', hw', hcancelled⟩
    · exact hclosed.symm.trans h
    · exact hcancelled (ho.cancelled (hclosed ▸ h) n w' hw')
  · rw [harmed, Option.some.injEq] at hn
    subst hn
    rw [monitor] at hw
    rcases Monitor.getElem?_arm hw with ⟨-, rfl⟩ | ⟨w', hw', -⟩
    · by_cases hperiod : o.monitor.period.nanos = 0
      · simp [Watch.isAsking, Monitor.firstStage, hperiod]
      · simp [Watch.isAsking, Monitor.firstStage, hperiod]
    · have := (List.getElem?_eq_some_iff.mp hw').1
      omega

theorem monitored_of_ticks {o o' : Orchestrator} {hs : Monitor.Healers} {w : Watch} {heals : Bool}
    (ho : o.Monitored) (here : o.monitor.watches[n]? = some w)
    (ticks : Monitor.Ticks hs n w o.monitor o'.monitor heals) (healer : o'.healer = o.healer) :
    o'.Monitored := by
  generalize hmonitor : o'.monitor = monitor at ticks
  cases ticks with
  | stays stage calm =>
      have hclosed : o'.isClosed = o.isClosed := by
        rw [Orchestrator.isClosed, hmonitor]
        simp [Orchestrator.isClosed]
      refine ⟨fun k hk => ?_, fun h => ?_, fun h k y hy => ?_, fun h => ?_⟩
      · rw [hmonitor] at hk ⊢
        simpa using ho.known k (by simpa using hk)
      · rw [healer]
        exact ho.heeded (hclosed ▸ h)
      · rw [hmonitor] at hy
        obtain ⟨y', hy', hcancelled, -⟩ := Monitor.getElem?_setStage hy
        rw [hcancelled]
        exact ho.cancelled (hclosed ▸ h) k y' hy'
      · rw [hclosed] at h
        rw [healer]
        refine (ho.calm h).imp_right fun hcalm k y hk hy => ?_
        rw [hmonitor] at hk hy
        obtain ⟨y', hy', -, hstage⟩ := Monitor.getElem?_setStage hy
        by_cases hn : n = k
        · -- The watch is cancelled, so it does not ask again.
          rw [if_pos hn] at hstage
          unfold Watch.isAsking
          split
          · rename_i i j r hasking
            have hgoing := calm ⟨i, j, r, hstage.symm.trans hasking⟩
            rw [ho.cancelled h n w here] at hgoing
            cases hgoing
          · rfl
        · rw [if_neg hn] at hstage
          have := hcalm k y' (by simpa using hk) hy'
          simpa only [Watch.isAsking, hstage] using this
  | heals =>
      have hclosed : o'.isClosed = o.isClosed := by
        rw [Orchestrator.isClosed, hmonitor]
        rfl
      refine ⟨fun k hk => ?_, fun h => ?_, fun h k y hy => ?_, fun _ => .inr fun k y hk => ?_⟩
      · simp [hmonitor] at hk
      · rw [healer]
        exact ho.heeded (hclosed ▸ h)
      · rw [hmonitor] at hy
        obtain ⟨y', hy', hcancelled, -⟩ := Monitor.getElem?_setStage hy
        rw [hcancelled]
        exact ho.cancelled (hclosed ▸ h) k y' hy'
      · simp [hmonitor] at hk

/-- All watches are cancelled, and nobody will heal or no watch counts. -/
theorem monitored_of_closed {o o' : Orchestrator} (ho : o.Monitored)
    (monitor : (o'.monitor = o.monitor.close ∧ o'.healer = .gone) ∨
      o'.monitor = o.monitor.close.disarm) : o'.Monitored := by
  have hcancelled {k : Nat} {y : Watch} (hy : o.monitor.close.watches[k]? = some y) :
      y.cancelled = true := by
    rw [Monitor.close, List.getElem?_map] at hy
    obtain ⟨y', -, rfl⟩ := Option.map_eq_some_iff.mp hy
    rfl
  rcases monitor with ⟨hmonitor, hhealer⟩ | hmonitor
  · refine ⟨fun k hk => ?_, fun h => ?_, fun _ k y hy => ?_, fun _ => .inl hhealer⟩
    · rw [hmonitor] at hk ⊢
      simpa using ho.known k (by simpa using hk)
    · rw [Orchestrator.isClosed, hmonitor] at h
      cases h
    · exact hcancelled (hmonitor ▸ hy)
  · refine ⟨fun k hk => ?_, fun h => ?_, fun _ k y hy => ?_, fun _ => .inr fun k y hk => ?_⟩
    · simp [hmonitor] at hk
    · simp [Orchestrator.isClosed, hmonitor] at h
    · rw [hmonitor] at hy
      obtain ⟨y', hy', -, h⟩ := Monitor.getElem?_disarm hy
      exact h (hcancelled hy')
    · simp [hmonitor] at hk

theorem monitored_of_perform (ho : s.self.Monitored) (hp : s.perform a = some u) :
    u.self.Monitored := by
  cases watching_of_perform hp with
  | arms n x success monitor healer =>
      unfold armedSelf at monitor
      split at monitor
      · exact monitored_of_armed ho monitor healer
      · exact monitored_of_same ho monitor healer
  | ticks n w heals here ticks asks callers healer => exact monitored_of_ticks ho here ticks healer
  | shuts going monitor => exact monitored_of_closed ho (.inr monitor)
  | closes idle monitor healer => exact monitored_of_closed ho (.inl ⟨monitor, healer⟩)
  | stays idle monitor healer => exact monitored_of_same ho monitor healer

theorem IsStart.monitored (hs : s.IsStart) : s.self.Monitored := by
  obtain ⟨number, config, blueprint, setup, hself⟩ := hs.eq_withConfig
  rw [hself]
  exact ⟨by simp [Orchestrator.withConfig], fun _ => rfl,
    by simp [Orchestrator.withConfig], by simp [Orchestrator.withConfig]⟩

theorem monitored_of_trace (ho : s.self.Monitored) (ht : Trace s h t) : t.self.Monitored := by
  induction ht with
  | start => exact ho
  | step _ hp ih => exact monitored_of_perform ih hp

theorem heals_of_closed (ho : s.self.Monitored) (hclosed : s.self.isClosed = true) :
    Moment.heals ⟨s, a⟩ = false := by
  unfold Moment.heals
  split
  · rename_i n haction
    split
    · rename_i site monitor heals hstep
      obtain ⟨w, hw, hticks⟩ := Monitor.ticks_of_step hstep
      cases hticks with
      | stays => rfl
      | heals asking present counts =>
          rcases ho.calm hclosed with hgone | hcalm
          · simp [Orchestrator.healers, hgone] at present
          · exact asking.symm.trans (hcalm n w counts hw)
    · rfl
  · rfl

end State

end PreviewDeploy
