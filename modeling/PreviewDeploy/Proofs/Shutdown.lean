import PreviewDeploy.Proofs.Accounting

/-!
# After a shutdown

An orchestrator that was shut down does nothing new (`State.stilled_of_trace`).  A call that comes
is refused at once.  No loop begins an attempt any more; one that is inside an attempt, or runs the
setup commands after it, tells how that has ended and then nothing.  A success arms the monitor as
ever, but with a watch that is cancelled from the start, and no watch asks for healing, not even
one that waits for an answer.
-/

namespace PreviewDeploy

/-- The deployment of which an event tells how an attempt has ended. -/
def Event.reported? : Event → Option DeploymentId
  | attemptFailed deployment .. => some deployment
  | completed deployment .. => some deployment
  | _ => none

/-- The `n`-th loop goes on at a moment. -/
def Moment.isStepOf (n : Nat) (e : Moment) : Bool :=
  match e.action with
  | .step (.loop m) => m = n
  | _ => false

/-- How many attempts the `n`-th loop tells the end of. -/
def reports (n : Nat) (h : List Moment) : Nat :=
  (told (h.filter (·.isStepOf n))).countP (·.reported?.isSome)

namespace State

variable {s t u v : State} {a : Action} {h earlier later : List Moment} {e : Moment} {n : Nat}
  {l l' : Loop} {x : Event}

/-! ### What is told -/

theorem of_mem_failureEvents {attempt : UInt32} {session : SessionId} {f : Failure}
    (hx : x ∈ failureEvents l attempt session f s) :
    x.isRotation = true ∨ x.reported? = some l.deployment ∧ x.isAttemptFailed = true := by
  unfold failureEvents at hx
  rcases List.mem_append.mp hx with hx | hx
  · split at hx
    · obtain rfl := List.mem_singleton.mp hx
      exact .inl rfl
    · cases hx
  · obtain rfl := List.mem_singleton.mp hx
    exact .inr ⟨rfl, rfl⟩

/-- Only a loop tells how an attempt has ended, and of its own deployment. -/
theorem loop_of_reported {d : DeploymentId} (hp : s.perform a = some u)
    (hx : x ∈ Moment.told ⟨s, a⟩) (hd : x.reported? = some d) :
    ∃ n l, a = .step (.loop n) ∧ s.self.loops[n]? = some l ∧ l.deployment = d := by
  have htelling := Telling.of_told hp
  generalize Moment.told ⟨s, a⟩ = told at htelling hx
  cases htelling with
  | @fails n l attempt session k deadline f here =>
      rcases of_mem_failureEvents hx with hrotation | ⟨hreported, -⟩
      · have hnone : x.reported? = none := by cases x <;> first | rfl | cases hrotation
        rw [hnone] at hd
        cases hd
      · exact ⟨n, l, rfl, here, Option.some.inj (hreported.symm.trans hd)⟩
  | @completes n l attempt y here =>
      obtain rfl := List.mem_singleton.mp hx
      exact ⟨n, l, rfl, here, Option.some.inj hd⟩
  | moves => cases hx
  | starts =>
      rcases of_mem_startEvents hx with ⟨m, l, -, rfl⟩ | ⟨session, message, files, rfl⟩
      · cases hd
      · cases hd
  | aside other aside =>
      have haside := aside x hx
      have hnone : x.reported? = none := by cases x <;> first | rfl | cases haside
      rw [hnone] at hd
      cases hd

variable {inst : InstanceId}

theorem not_healed_of_stepLoop (hp : s.stepLoop n = some u) :
    .selfHealTriggered inst ∉ Moment.told ⟨s, .step (.loop n)⟩ := by
  intro hx
  have htelling : Telling s u (.step (.loop n)) (Moment.told ⟨s, .step (.loop n)⟩) := .of_told hp
  generalize Moment.told ⟨s, .step (.loop n)⟩ = told at htelling hx
  cases htelling with
  | fails =>
      rcases of_mem_failureEvents hx with h | ⟨h, -⟩
      · cases h
      · cases h
  | completes => cases List.mem_singleton.mp hx
  | moves => cases hx
  | aside other => exact absurd rfl (other n)

theorem not_healed_of_stepCaller (hp : s.stepCaller n = some u) :
    .selfHealTriggered inst ∉ Moment.told ⟨s, .step (.caller n)⟩ := by
  have of_told (told : List Event) (hevents : u.world.events = s.world.events ++ told)
      (hnot : .selfHealTriggered inst ∉ told) :
      .selfHealTriggered inst ∉ Moment.told ⟨s, .step (.caller n)⟩ := by
    have htold : Moment.told ⟨s, .step (.caller n)⟩ = told := told_eq hp hevents
    rw [htold]
    exact hnot
  obtain ⟨c, -, hs⟩ := stepCaller_cases hp
  cases hs with
  | refused => exact of_told [] (by simp) List.not_mem_nil
  | joins => exact of_told [] (by simp) List.not_mem_nil
  | starts =>
      refine of_told (startEvents c.request s) (by simp) fun h => ?_
      rcases of_mem_startEvents h with ⟨m, l, -, h⟩ | ⟨session, message, files, h⟩
      · cases h
      · cases h
  | returns => exact of_told [] (by simp) List.not_mem_nil
  | expires k since deadline starter waiting l =>
      exact of_told [expiry since l.deployment s] (by simp) (by simp [expiry])

/-- It is told that healing is asked for only when a watch asks for it. -/
theorem heals_of_told (hp : s.perform a = some u)
    (hx : .selfHealTriggered inst ∈ Moment.told ⟨s, a⟩) : Moment.heals ⟨s, a⟩ = true := by
  cases a with
  | step task =>
      cases task with
      | transaction n =>
          obtain ⟨t, site, stage, -, hstep, -, -, -, -, -, hevents⟩ := stepTransaction_cases hp
          have htold : Moment.told ⟨s, .step (.transaction n)⟩ = [] :=
            told_eq hp (by simp [hevents, (Transaction.advances_of_step hstep).1.events])
          rw [htold] at hx
          cases hx
      | loop n => exact absurd hx (not_healed_of_stepLoop hp)
      | caller n => exact absurd hx (not_healed_of_stepCaller hp)
      | watch n =>
          obtain ⟨w, heals, -, hheeds, hheals⟩ := heeds_of_stepWatch hp
          rw [told_eq hp hheeds.told] at hx
          cases heals with
          | true => exact hheals
          | false => cases hx
      | direct => cases hp
  | _ =>
      rw [told_of_outer (by simp) hp] at hx
      cases hx

/-- An orchestrator that is closed starts no deployment, supersedes none and heals nothing. -/
theorem told_of_closed (ho : s.self.Monitored) (hclosed : s.self.isClosed = true)
    (hp : s.perform a = some u) (hx : x ∈ Moment.told ⟨s, a⟩) :
    x.isStarted = false ∧ x.isSuperseded = false ∧ x.isSelfHeal = false := by
  have hheals : x.isSelfHeal = false := by
    cases x with
    | selfHealTriggered inst =>
        have hheals := heals_of_told hp hx
        rw [heals_of_closed ho hclosed] at hheals
        cases hheals
    | _ => rfl
  have htelling := Telling.of_told hp
  generalize Moment.told ⟨s, a⟩ = told at htelling hx
  cases htelling with
  | fails =>
      rcases of_mem_failureEvents hx with hrotation | ⟨-, hfailed⟩
      · cases x <;> first | exact ⟨rfl, rfl, rfl⟩ | cases hrotation
      · cases x <;> first | exact ⟨rfl, rfl, rfl⟩ | cases hfailed
  | completes =>
      obtain rfl := List.mem_singleton.mp hx
      exact ⟨rfl, rfl, rfl⟩
  | moves => cases hx
  | starts going =>
      rw [hclosed] at going
      cases going
  | aside other aside =>
      have haside := aside x hx
      cases x <;> first | exact ⟨rfl, rfl, hheals⟩ | cases haside

/-! ### Loops that were cancelled -/

theorem begins_of_closed (hs : s.IsStart) (ht : Trace s h t) (hclosed : t.self.isClosed = true) :
    Moment.begins ⟨t, a⟩ = false := by
  refine Bool.eq_false_iff.mpr fun hbegins => ?_
  obtain ⟨n, l, attempt, -, hl, -, going⟩ := Moment.begins_eq_true.mp hbegins
  rw [cancelled_of_closed hs ht hclosed hl] at going
  cases going

/-- A loop that is cancelled tells the end of the attempt that it is inside of, and of no other
one. -/
theorem reports_of_stepLoop (hp : s.stepLoop n = some u) (hl : s.self.loops[n]? = some l)
    (hc : l.cancelled = true) (hl' : u.self.loops[n]? = some l') :
    (Moment.told ⟨s, .step (.loop n)⟩).countP (·.reported?.isSome) + LoopStage.left l'.stage ≤
      LoopStage.left l.stage := by
  have htelling : Telling s u (.step (.loop n)) (Moment.told ⟨s, .step (.loop n)⟩) := .of_told hp
  have after {stage : LoopStage} (loops : u.self.loops = (s.self.setLoop n stage).loops) :
      l'.stage = stage := by
    rcases getElem?_setLoop hl (loops ▸ hl') with ⟨-, rfl⟩ | ⟨hne, -⟩
    · rfl
    · exact absurd rfl hne
  generalize Moment.told ⟨s, .step (.loop n)⟩ = told at htelling
  cases htelling with
  | @fails n y attempt session k deadline f here attempting loops =>
      obtain rfl := Option.some.inj (hl.symm.trans here)
      have htold : (failureEvents l attempt session f s).countP (·.reported?.isSome) = 1 := by
        unfold failureEvents
        split <;> rfl
      rw [htold, after loops, attempting]
      exact Nat.le_refl _
  | completes here trying loops =>
      obtain rfl := Option.some.inj (hl.symm.trans here)
      rw [after loops]
      obtain ⟨session, k, deadline, hs⟩ | ⟨x, reply, hs⟩ := trying
      · rw [hs]
        exact Nat.le_refl _
      · rw [hs]
        exact Nat.le_refl _
  | moves here moves loops =>
      obtain rfl := Option.some.inj (hl.symm.trans here)
      rw [after loops]
      cases moves with
      | begins attempt session k deadline ready going =>
          rw [hc] at going
          cases going
      | setsUp attempt session k deadline attempting =>
          rw [attempting]
          exact Nat.le_refl _
      | retries attempt due waiting going =>
          rw [hc] at going
          cases going
      | stops => exact Nat.zero_le _
  | aside other => exact absurd rfl (other n)

theorem reports_cons_of_not {e : Moment} (h : e.isStepOf n = false) :
    reports n (e :: later) = reports n later := by
  simp [reports, h]

theorem reports_cons_of_step : reports n (⟨s, .step (.loop n)⟩ :: later) =
    reports n later + (Moment.told ⟨s, .step (.loop n)⟩).countP (·.reported?.isSome) := by
  simp [reports, Moment.isStepOf, told]

theorem isStepOf_iff {e : Moment} : e.isStepOf n = true ↔ e.action = .step (.loop n) := by
  unfold Moment.isStepOf
  split
  · rename_i m haction
    simp [haction]
  · rename_i haction
    exact iff_of_false Bool.false_ne_true (haction n)

theorem reports_of_cancelled (ht : Trace u later t) (hl : u.self.loops[n]? = some l)
    (hc : l.cancelled = true) : ∃ l', t.self.loops[n]? = some l' ∧ l'.cancelled = true ∧
      reports n later + LoopStage.left l'.stage ≤ LoopStage.left l.stage := by
  induction ht with
  | start => exact ⟨l, hl, hc, by simp [reports, told]⟩
  | @step later t w a _ hp ih =>
      obtain ⟨y, hy, hyc, hle⟩ := ih
      obtain ⟨l', hl', -⟩ := loop_of_perform hy hp
      cases fares_of_perform hp hl' with
      | proceeds z here acts stage cancelled =>
          obtain rfl := Option.some.inj (hy.symm.trans here)
          subst acts
          have hstep := reports_of_stepLoop hp hy hyc hl'
          refine ⟨l', hl', cancelled.trans hyc, ?_⟩
          rw [reports_cons_of_step]
          omega
      | starts new =>
          have hlt := (List.getElem?_eq_some_iff.mp hy).1
          omega
      | stays z here other stage cancelled =>
          obtain rfl := Option.some.inj (hy.symm.trans here)
          refine ⟨l', hl', cancelled hyc, ?_⟩
          rw [reports_cons_of_not (Bool.eq_false_iff.mpr (mt isStepOf_iff.mp other)), stage]
          exact hle

theorem reports_of_closed (hs : s.IsStart) (ht : Trace s earlier v)
    (hclosed : v.self.isClosed = true) (hlater : Trace v later t) : reports n later ≤ 1 := by
  cases hl : v.self.loops[n]? with
  | some l =>
      obtain ⟨l', -, -, hle⟩ := reports_of_cancelled hlater hl
        (cancelled_of_closed hs ht hclosed hl)
      have : LoopStage.left l.stage ≤ 1 := by
        unfold LoopStage.left
        split <;> omega
      omega
  | none =>
      -- There are no loops but those that there were.
      have hnone : later.filter (·.isStepOf n) = [] := by
        refine List.filter_eq_nil_iff.mpr fun e he hstep => ?_
        obtain ⟨between, earlier, rfl, hearlier, u, hp, -⟩ := hlater.split_of_mem he
        rw [isStepOf_iff.mp hstep] at hp
        obtain ⟨l, hl', -⟩ := stepLoop_cases hp
        have hlength := congrArg List.length (deployments_of_closed hearlier hclosed)
        rw [List.length_map, List.length_map] at hlength
        have hlt := (List.getElem?_eq_some_iff.mp hl').1
        have hle := List.getElem?_eq_none_iff.mp hl
        omega
      rw [reports, hnone]
      exact Nat.zero_le _

/-! ### Calls -/

/-- A call is answered with nothing at once, and nothing else is done for it. -/
structure Refused (t : State) (n : Nat) (u : State) : Prop where
  answer : u.self.stageOf n = .finished t.world.now none
  now : u.world.now = t.world.now
  events : u.world.events = t.world.events
  metrics : u.world.metrics = t.world.metrics
  calls : u.world.calls = t.world.calls

theorem refused_of_closed {c : Caller} (hclosed : t.self.isClosed = true)
    (hc : t.self.callers[n]? = some c) (entering : c.stage = .entering) :
    ∃ u, t.perform (.step (.caller n)) = some u ∧ Refused t n u := by
  refine ⟨_, stepCaller_of_closed hc entering hclosed, ?_, by simp, by simp, by simp, by simp⟩
  exact Orchestrator.stageOf_of_set hc (by simp)

theorem unserved_of_closed (hclosed : v.self.isClosed = true) (hlater : Trace v later t)
    (hstage : v.self.stageOf n = .entering) :
    t.self.stageOf n = .entering ∨ t.self.stageOf n = .gone ∨
      ∃ time, t.self.stageOf n = .finished time none := by
  induction hlater with
  | start => exact .inl hstage
  | @step later t u a ht hp ih =>
      rcases goes_or_stays hp n with ⟨c, hc, goes⟩ | ⟨hstays, -⟩
      · rw [Orchestrator.stageOf_of_some hc] at ih
        generalize c.stage = old at goes ih
        generalize u.self.stageOf n = stage at goes ⊢
        generalize u.self.slot = slot at goes
        have hclosed' := isClosed_of_trace hclosed ht
        cases goes with
        | refused => exact .inr (.inr ⟨_, rfl⟩)
        | joins going =>
            rw [hclosed'] at going
            cases going
        | starts going =>
            rw [hclosed'] at going
            cases going
        | withdraws => exact .inr (.inl rfl)
        | _ => simp at ih
      · rw [hstays]
        exact ih

/-- What an orchestrator that was shut down has come to. -/
structure Stilled (v : State) (later : List Moment) (t : State) : Prop where
  /-- A call that is made can enter at once and is refused. -/
  deploys : ∀ request, t.self.held = true → ∃ w u, t.perform (.call request) = some w ∧
    w.perform (.step (.caller t.self.callers.length)) = some u ∧
    Refused t t.self.callers.length u
  enters : ∀ (n : Nat) (c : Caller), t.self.callers[n]? = some c → c.stage = .entering →
    ∃ u, t.perform (.step (.caller n)) = some u ∧ Refused t n u
  unserved : ∀ n, v.self.stageOf n = .entering → t.self.stageOf n = .entering ∨
    t.self.stageOf n = .gone ∨ ∃ time, t.self.stageOf n = .finished time none
  idle : ∀ e ∈ later, e.begins = false
  attempts : t.world.metrics.attempts = v.world.metrics.attempts
  events : t.world.events = v.world.events ++ told later
  quiet : ∀ x ∈ told later, x.isStarted = false ∧ x.isSuperseded = false ∧ x.isSelfHeal = false
  /-- A loop tells how the attempt has ended that it was inside of, and then nothing. -/
  reports : ∀ n, reports n later ≤ 1
  own : ∀ e ∈ later, ∀ x ∈ e.told, ∀ d, x.reported? = some d →
    ∃ n l, e.action = .step (.loop n) ∧ e.state.self.loops[n]? = some l ∧ l.deployment = d

/-- Whenever an orchestrator is shut down, it does nothing new from then on. -/
theorem stilled_of_trace (hs : s.IsStart) (ht : Trace s earlier v)
    (hlater : Trace v.shutdown later t) : Stilled v later t := by
  have hshut : Trace s (⟨v, .shutdown⟩ :: earlier) v.shutdown := ht.step rfl
  have hclosed := isClosed_of_trace isClosed_shutdown hlater
  have idle (e : Moment) (he : e ∈ later) : e.begins = false := by
    obtain ⟨after, before, rfl, hbefore, -⟩ := hlater.split_of_mem he
    exact begins_of_closed hs (hshut.append hbefore) (isClosed_of_trace isClosed_shutdown hbefore)
  refine ⟨fun request hheld => ?_, fun n c hc entering => refused_of_closed hclosed hc entering,
    fun n hn => ?_, idle, ?_, ?_, fun x hx => ?_, fun n => ?_, fun e he x hx d hd => ?_⟩
  · have hc : (t.addCaller request false).self.callers[t.self.callers.length]? =
        some { request, heal := false } := by simp
    obtain ⟨u, hp, hrefused⟩ := refused_of_closed (t := t.addCaller request false) hclosed hc rfl
    exact ⟨_, u, if_pos hheld, hp, hrefused.answer, hrefused.now, hrefused.events,
      hrefused.metrics, hrefused.calls⟩
  · refine unserved_of_closed isClosed_shutdown hlater ?_
    rw [Orchestrator.stageOf, (shutdown_frame v).1, (shutSelf_frame v.self).2.2.2.2.2.1]
    exact hn
  · rw [attempts_of_trace hlater, List.countP_eq_zero.mpr fun e he => by simp [idle e he],
      metrics_shutdown, Nat.add_zero]
  · rw [events_of_trace hlater, (shutdown_frame v).2.2.2.2.2]
  · obtain ⟨before, after, hsplit⟩ := List.append_of_mem hx
    obtain ⟨rest, e, between, pre, post, rfl, htold, -⟩ := moment_of_told hsplit
    obtain ⟨hbetween, u, hp, -⟩ := hlater.split
    have hmonitored := monitored_of_trace hs.monitored (hshut.append hbetween)
    exact told_of_closed hmonitored (isClosed_of_trace isClosed_shutdown hbetween) hp
      (by simp [htold])
  · exact reports_of_closed hs hshut isClosed_shutdown hlater
  · obtain ⟨-, -, -, -, u, hp, -⟩ := hlater.split_of_mem he
    exact loop_of_reported hp hx hd

/-- A loop is inside its first attempt when the orchestrator is shut down. -/
def begun : List Action := [.call .allFiles, .step (.caller 0), .step (.loop 0)]

/-- The attempt succeeds; another call comes after that. -/
def inFlight : List Action :=
  [.step (.transaction 0), .pass 5, .step (.transaction 0), .step (.loop 0), .step (.caller 0),
    .call .allFiles, .step (.caller 1)]

/-- The deployment is completed and the monitor is armed after the shutdown, and the later call is
refused. -/
theorem stilled_of_trace_of_inFlight : ∃ v t, bare.IsStart ∧ Trace bare (bare.history begun) v ∧
    Trace v.shutdown (v.shutdown.history inFlight) t ∧
    reports 0 (v.shutdown.history inFlight) = 1 ∧ t.self.monitor.isArmed = true ∧
    t.self.callers.map (·.answer?.map (·.2.isSome)) = [some true, some false] ∧
    Stilled v (v.shutdown.history inFlight) t := by
  have hrun : (bare.follow begun).map (fun v => (reports 0 (v.shutdown.history inFlight),
      (v.shutdown.follow inFlight).map fun t => (t.self.monitor.isArmed,
        t.self.callers.map (·.answer?.map (·.2.isSome))))) =
      some (1, some (true, [some true, some false])) := by
    decide +kernel
  obtain ⟨v, hv, hrun⟩ := trace_of_map hrun
  obtain ⟨hreports, hlater⟩ := Prod.mk.inj hrun
  obtain ⟨t, ht, hend⟩ := trace_of_map hlater
  obtain ⟨harmed, hanswers⟩ := Prod.mk.inj hend
  exact ⟨v, t, isStart_bare, hv, ht, hreports, harmed, hanswers,
    stilled_of_trace isStart_bare hv ht⟩

end State

end PreviewDeploy
