import PreviewDeploy.Proofs.Narratives

/-!
# Retries

After a failed attempt a loop waits for the delay of the attempt, and then begins the next one
unless it is cancelled meanwhile (`State.Awaits`).  With what observers are told this describes
the course of a deployment from its start to its completion (`State.narrated_of_trace`).
-/

namespace PreviewDeploy

namespace Moment

/-- It is told at the moment that an attempt of a deployment has failed. -/
def Fails (d : DeploymentId) (attempt : UInt32) (e : Moment) : Prop :=
  ∃ session error kind retry rotated,
    .attemptFailed d session attempt error kind retry rotated ∈ e.told

/-- A deployment begins an attempt at the moment. -/
def BeginsAttempt (d : DeploymentId) (attempt : UInt32) (e : Moment) : Prop :=
  ∃ m l, e.action = .step (.loop m) ∧ e.state.self.loops[m]? = some l ∧ l.deployment = d ∧
    l.stage = .ready attempt ∧ l.cancelled = false

/-- No time passes at the moment while the loop of a deployment could go on. -/
def IsPrompt (d : DeploymentId) (e : Moment) : Prop :=
  ∀ millis k m l u, e.action = .pass millis → k < millis → e.state.self.loops[m]? = some l →
    l.deployment = d → e.state.perform (.pass k) = some u → u.stepLoop m = none

end Moment

namespace State

variable {s t u : State} {a : Action} {h later earlier : List Moment} {e b : Moment} {m due : Nat}
  {l : Loop} {d : DeploymentId} {attempt : UInt32}

theorem now_le_of_trace (ht : Trace s h t) : s.world.now ≤ t.world.now := by
  induction ht with
  | start => exact Nat.le_refl _
  | step _ hp ih =>
      rw [(clock_of_perform hp).2]
      exact Nat.le_trans ih (Nat.le_add_right ..)

theorem now_le_of_mem (ht : Trace s h t) (he : e ∈ h) : e.state.world.now ≤ t.world.now := by
  obtain ⟨later, earlier, rfl, -, u, hp, hlater⟩ := ht.split_of_mem he
  rw [← Nat.add_zero e.state.world.now]
  refine Nat.le_trans ?_ (now_le_of_trace hlater)
  rw [(clock_of_perform hp).2]
  omega

/-! ### From a failed attempt to the next one -/

/-- What has become of a deployment since an attempt of it has failed: its loop waits until the
delay has passed, is about to begin the next attempt, or has stopped because it was cancelled; or
the next attempt has begun. -/
inductive Awaits (d : DeploymentId) (attempt : UInt32) (due m : Nat) (later : List Moment)
    (t : State) : Prop
  | waiting (l : Loop) (here : t.self.loops[m]? = some l) (deployment : l.deployment = d)
      (stage : l.stage = .backingOff attempt due)
      (prompt : (∀ w ∈ later, w.IsPrompt d) → l.cancelled = true ∨ t.world.now ≤ due)
  | ready (l : Loop) (here : t.self.loops[m]? = some l) (deployment : l.deployment = d)
      (stage : l.stage = .ready (attempt + 1)) (late : due ≤ t.world.now)
      (prompt : (∀ w ∈ later, w.IsPrompt d) → l.cancelled = true ∨ t.world.now = due)
  | stopped (l : Loop) (here : t.self.loops[m]? = some l) (deployment : l.deployment = d)
      (stage : l.stage = .finished none) (cancelled : l.cancelled = true)
  | begun (b : Moment) (mem : b ∈ later) (begins : b.BeginsAttempt d (attempt + 1))
      (late : due ≤ b.state.world.now)
      (prompt : (∀ w ∈ later, w.IsPrompt d) → b.state.world.now = due)

/-- While a loop could go on, no time passes. -/
theorem now_of_isPrompt (hp : s.perform a = some u) (hw : Moment.IsPrompt d ⟨s, a⟩)
    (hl : s.self.loops[m]? = some l) (hd : l.deployment = d) {time : Nat}
    (can : ∀ v : State, v.self = s.self → time ≤ v.world.now → v.stepLoop m ≠ none)
    (early : s.world.now ≤ time) : u.world.now ≤ time := by
  rw [(clock_of_perform hp).2]
  by_cases hlate : time < s.world.now + a.elapsed
  · obtain ⟨millis, rfl⟩ : ∃ millis, a = .pass millis := by
      cases a with
      | pass millis => exact ⟨millis, rfl⟩
      | _ => simp [Action.elapsed] at hlate; omega
    refine absurd (hw millis (time - s.world.now) m l _ rfl ?_ hl hd rfl) (can _ rfl ?_)
    · simp only [Action.elapsed] at hlate
      omega
    · simp only [mapWorld_frame]
      omega
  · omega

theorem Awaits.step (ha : Awaits d attempt due m later s) (hp : s.stepLoop m = some u) :
    Awaits d attempt due m (⟨s, .step (.loop m)⟩ :: later) u := by
  cases ha with
  | waiting l here deployment stage prompt =>
      obtain ⟨l', hl', hs⟩ := stepLoop_cases hp
      obtain rfl := Option.some.inj (here.symm.trans hl')
      cases hs with
      | stops cancelled =>
          exact .stopped { l with stage := .finished none }
            (by simp [Orchestrator.setLoop, here]) deployment rfl cancelled
      | retries attempt' due' waiting going late =>
          rw [stage] at waiting
          cases waiting
          refine .ready { l with stage := .ready (attempt + 1) }
            (by simp [Orchestrator.setLoop, here]) deployment rfl late fun hprompt => .inr ?_
          rcases prompt (List.forall_mem_cons.mp hprompt).2 with hc | hle
          · rw [hc] at going
            cases going
          · exact Nat.le_antisymm hle late
      | begins attempt' ready => simp [stage] at ready
      | succeeds _ _ _ _ attempting => simp [stage] at attempting
      | fails _ _ _ _ attempting => simp [stage] at attempting
      | completes _ _ _ settingUp => simp [stage] at settingUp
  | ready l here deployment stage late prompt =>
      obtain ⟨l', hl', hs⟩ := stepLoop_cases hp
      obtain rfl := Option.some.inj (here.symm.trans hl')
      cases hs with
      | stops cancelled =>
          exact .stopped { l with stage := .finished none }
            (by simp [Orchestrator.setLoop, here]) deployment rfl cancelled
      | begins attempt' ready going =>
          refine .begun ⟨s, .step (.loop m)⟩ List.mem_cons_self
            ⟨m, l, rfl, here, deployment, stage, going⟩ late fun hprompt => ?_
          rcases prompt (List.forall_mem_cons.mp hprompt).2 with hc | heq
          · rw [hc] at going
            cases going
          · exact heq
      | succeeds _ _ _ _ attempting => simp [stage] at attempting
      | fails _ _ _ _ attempting => simp [stage] at attempting
      | retries _ _ waiting => simp [stage] at waiting
      | completes _ _ _ settingUp => simp [stage] at settingUp
  | stopped l here deployment stage => simp [stepLoop, here, stage] at hp
  | begun b mem begins late prompt =>
      exact .begun b (List.mem_cons_of_mem _ mem) begins late fun hprompt =>
        prompt (List.forall_mem_cons.mp hprompt).2

theorem Awaits.perform (ha : Awaits d attempt due m later s) (hp : s.perform a = some u) :
    Awaits d attempt due m (⟨s, a⟩ :: later) u := by
  by_cases hm : a = .step (.loop m)
  · subst hm
    exact ha.step hp
  · have hnow : s.world.now ≤ u.world.now := by
      rw [(clock_of_perform hp).2]
      exact Nat.le_add_right ..
    cases ha with
    | waiting l here deployment stage prompt =>
        obtain ⟨l', hl', hstays⟩ := stays_of_perform here hp hm
        refine .waiting l' hl' (hstays.deployment.trans deployment) (hstays.stage.trans stage)
          fun hprompt => ?_
        obtain ⟨hhere, hlater⟩ := List.forall_mem_cons.mp hprompt
        rcases Bool.eq_false_or_eq_true l.cancelled with hc | hgoing
        · exact .inl (hstays.cancelled hc)
        · refine .inr (now_of_isPrompt hp hhere here deployment (fun v hv hle => ?_) ?_)
          · simp [stepLoop, hv, here, stage, hgoing, hle]
          · simpa [hgoing] using prompt hlater
    | ready l here deployment stage late prompt =>
        obtain ⟨l', hl', hstays⟩ := stays_of_perform here hp hm
        refine .ready l' hl' (hstays.deployment.trans deployment) (hstays.stage.trans stage)
          (Nat.le_trans late hnow) fun hprompt => ?_
        obtain ⟨hhere, hlater⟩ := List.forall_mem_cons.mp hprompt
        rcases Bool.eq_false_or_eq_true l.cancelled with hc | hgoing
        · exact .inl (hstays.cancelled hc)
        · have heq : s.world.now = due := by simpa [hgoing] using prompt hlater
          refine .inr (Nat.le_antisymm ?_ (Nat.le_trans late hnow))
          refine now_of_isPrompt hp hhere here deployment (fun v hv hle => ?_) (Nat.le_of_eq heq)
          simp [stepLoop, hv, here, stage]
    | stopped l here deployment stage cancelled =>
        obtain ⟨l', hl', hstays⟩ := stays_of_perform here hp hm
        exact .stopped l' hl' (hstays.deployment.trans deployment) (hstays.stage.trans stage)
          (hstays.cancelled cancelled)
    | begun b mem begins late prompt =>
        exact .begun b (List.mem_cons_of_mem _ mem) begins late fun hprompt =>
          prompt (List.forall_mem_cons.mp hprompt).2

theorem Awaits.trace (ha : Awaits d attempt due m [] u) (ht : Trace u later t) :
    Awaits d attempt due m later t := by
  induction ht with
  | start => exact ha
  | step _ hp ih => exact ih.perform hp

section Failed

variable (ht : Trace s (later ++ e :: earlier) t) (fails : e.Fails d attempt)
include ht fails

theorem awaits_of_failed : ∃ u m, Trace u later t ∧
    Awaits d attempt
      (e.state.world.now + (e.state.self.config.backoff.delay attempt).ceilMillis) m [] u := by
  obtain ⟨-, u, hp, hlater⟩ := ht.split
  obtain ⟨session, error, kind, retry, rotated, told⟩ := fails
  obtain ⟨m, l, k, deadline, f, haction, hl, rfl, hattempting, loops, -⟩ :=
    (Telling.of_told hp).of_attemptFailed told
  refine ⟨u, m, hlater, .waiting { l with
    stage := .backingOff attempt
      (e.state.world.now + (e.state.self.config.backoff.delay attempt).ceilMillis) }
    (by simp [loops, Orchestrator.setLoop, hl]) rfl rfl fun _ => .inr ?_⟩
  rw [(clock_of_perform hp).2, haction]
  exact Nat.add_le_add_left (Nat.zero_le _) _

theorem delay_of_failed (hd : t.Distinct) (hb : b ∈ later)
    (begins : b.BeginsAttempt d (attempt + 1)) :
    e.state.world.now + (e.state.self.config.backoff.delay attempt).ceilMillis ≤
      b.state.world.now := by
  obtain ⟨u, m, hlater, hawaits⟩ := awaits_of_failed ht fails
  obtain ⟨after, before, rfl, hbefore, v, hp, hafter⟩ := hlater.split_of_mem hb
  obtain ⟨m', l', -, hl', hd', hready, -⟩ := begins
  have hdistinct : b.state.Distinct := distinct_of_perform (distinct_of_trace hafter hd) hp
  -- The deployment has one loop only.
  have same {l : Loop} (here : b.state.self.loops[m]? = some l) (hl : l.deployment = d) :
      l.stage = .ready (attempt + 1) := by
    obtain rfl := hdistinct.eq here hl' (hl.trans hd'.symm)
    rw [Option.some.inj (here.symm.trans hl'), hready]
  cases hawaits.trace hbefore with
  | waiting l here deployment stage => simp [same here deployment] at stage
  | ready l here deployment stage late => exact late
  | stopped l here deployment stage => simp [same here deployment] at stage
  | begun w mem begins late => exact Nat.le_trans late (now_le_of_mem hbefore mem)

/-- The next attempt begins as soon as the delay has passed, unless the loop is cancelled. -/
theorem begins_of_failed (prompt : ∀ w ∈ later, w.IsPrompt d)
    (past : e.state.world.now + (e.state.self.config.backoff.delay attempt).ceilMillis <
      t.world.now) :
    (∃ b ∈ later, b.BeginsAttempt d (attempt + 1) ∧ b.state.world.now =
        e.state.world.now + (e.state.self.config.backoff.delay attempt).ceilMillis) ∨
      ∃ l ∈ t.self.loops, l.deployment = d ∧ l.cancelled = true := by
  obtain ⟨u, m, hlater, hawaits⟩ := awaits_of_failed ht fails
  cases hawaits.trace hlater with
  | waiting l here deployment stage hprompt =>
      rcases hprompt prompt with hc | hle
      · exact .inr ⟨l, List.mem_of_getElem? here, deployment, hc⟩
      · omega
  | ready l here deployment stage late hprompt =>
      rcases hprompt prompt with hc | heq
      · exact .inr ⟨l, List.mem_of_getElem? here, deployment, hc⟩
      · omega
  | stopped l here deployment stage cancelled =>
      exact .inr ⟨l, List.mem_of_getElem? here, deployment, cancelled⟩
  | begun b mem begins late hprompt => exact .inl ⟨b, mem, begins, hprompt prompt⟩

end Failed

/-! ### Deployments in a run -/

/-- The course of the deployments in a run: what observers are told of them, and when their attempts
begin. -/
structure Narrated (s : State) (h : List Moment) (t : State) : Prop where
  events : t.world.events = s.world.events ++ told h
  /-- What is told of a deployment is the beginning of a narrative: its start, its failed attempts
  as they are counted, and its completion. -/
  order (d : DeploymentId) : ∃ k, milestones d (told h) <+: Milestone.narrative k
  /-- Nothing is told twice of a deployment. -/
  once (d : DeploymentId) : (milestones d (told h)).Nodup
  /-- The delay that is told is that of the attempt in whole milliseconds.  The session is replaced
  if the error is fatal for it, and after every so many failures. -/
  failed {d : DeploymentId} {session : SessionId} {attempt : UInt32} {error kind : String}
    {retry : UInt64} {rotated : Bool} :
    .attemptFailed d session attempt error kind retry rotated ∈ told h →
      retry.toNat = (s.self.config.backoff.delay attempt).millis ∧
        retry.toNat ≤ s.self.config.backoff.cap.millis ∧
        (rotated = true ↔ Signature.saysLost error = true ∨
          0 < s.self.config.rotationThreshold ∧
            s.self.config.rotationThreshold.toNat ∣ attempt.toNat)
  /-- The delays of a deployment never decrease. -/
  steady {d : DeploymentId} {before between after : List Event} {session session' : SessionId}
    {attempt attempt' : UInt32} {error error' kind kind' : String} {retry retry' : UInt64}
    {rotated rotated' : Bool} :
    told h = before ++ .attemptFailed d session attempt error kind retry rotated ::
        (between ++ .attemptFailed d session' attempt' error' kind' retry' rotated' :: after) →
      retry ≤ retry'
  /-- That a session was replaced is told directly before the failure, and at no other time. -/
  announced : Announced (told h)
  /-- After a failed attempt no instance is known. -/
  forgets {e : Moment} {u : State} {d : DeploymentId} {attempt : UInt32} : e ∈ h →
    e.Fails d attempt → e.state.perform e.action = some u → u.identity.inst = none
  /-- The next attempt begins only once the delay has passed. -/
  waits {later earlier : List Moment} {e b : Moment} {d : DeploymentId} {attempt : UInt32} :
    h = later ++ e :: earlier → e.Fails d attempt →
      b ∈ later → b.BeginsAttempt d (attempt + 1) →
      (s.self.config.backoff.delay attempt).nanos ≤
        (b.state.world.now - e.state.world.now) * Duration.nanosPerMilli
  /-- If no time passes while the loop could go on, then the next attempt begins less than a
  millisecond after the delay, unless the loop is cancelled. -/
  retries {later earlier : List Moment} {e : Moment} {d : DeploymentId} {attempt : UInt32} :
    h = later ++ e :: earlier → e.Fails d attempt → (∀ w ∈ later, w.IsPrompt d) →
      (s.self.config.backoff.delay attempt).nanos + Duration.nanosPerMilli ≤
        (t.world.now - e.state.world.now) * Duration.nanosPerMilli →
      (∃ b ∈ later, b.BeginsAttempt d (attempt + 1) ∧
          (b.state.world.now - e.state.world.now) * Duration.nanosPerMilli <
            (s.self.config.backoff.delay attempt).nanos + Duration.nanosPerMilli) ∨
        ∃ l ∈ t.self.loops, l.deployment = d ∧ l.cancelled = true
  /-- Once a deployment is superseded, at most one more milestone of it is told. -/
  superseded {d d' : DeploymentId} {before after : List Event} :
    told h = before ++ .superseded d d' :: after → (milestones d after).length ≤ 1
  /-- Once the orchestrator is shut down, at most one more milestone of any deployment is told. -/
  shut {later earlier : List Moment} {e : Moment} : h = later ++ e :: earlier →
    e.action = .shutdown → ∀ d, (milestones d (told later)).length ≤ 1

/-- An orchestrator in a project without files that replaces the session after every second
failure. -/
def steadfast : State := .start 0 none { rotationThreshold := 2 } {} [] {}

/-- Two attempts find the control plane unreachable, and the third one succeeds. -/
def stumbles : List Action :=
  [.prepare { create := [⟨0, .error (.network "refused")⟩, ⟨0, .error (.network "refused")⟩,
      ⟨0, .ok { success := true, runId := some "run-1", previewUrl := some "https://run-1" }⟩] },
    .call .allFiles, .step (.caller 0), .step (.loop 0), .step (.transaction 0),
    .step (.transaction 0), .step (.loop 0), .pass 1000, .step (.loop 0), .step (.loop 0),
    .step (.transaction 1), .step (.transaction 1), .step (.loop 0), .pass 2000, .step (.loop 0),
    .step (.loop 0), .step (.transaction 2), .step (.transaction 2), .step (.loop 0)]

end State

end PreviewDeploy
