import PreviewDeploy.Proofs.Attempts
import PreviewDeploy.Proofs.Coalescing

/-!
# What is told of a deployment in a run

The milestones that observers are told of a deployment agree with the stage of its loop at any time
(`State.accounts_of_trace`), if no two deployments have the same name and no loop runs out of
numbers for its attempts.  A loop that is cancelled tells at most one more of them
(`State.curbed_of_trace`).
-/

namespace PreviewDeploy

namespace Moment

/-- What observers are told at a moment. -/
def told (e : Moment) : List Event :=
  match e.state.perform e.action with
  | some u => u.world.events.drop e.state.world.events.length
  | none => []

/-- A loop is to go on with another attempt, and there is no greater number for it. -/
def overflows (e : Moment) : Bool :=
  match e.action with
  | .step (.loop n) =>
    match e.state.self.loops[n]? with
    | some l =>
      match l.stage with
      | .backingOff attempt _ => !l.cancelled && attempt = UInt32.ofNat (UInt32.size - 1)
      | _ => false
    | none => false
  | _ => false

end Moment

/-- What observers are told in a history, in the order in which they are told. -/
def told : List Moment → List Event
  | [] => []
  | e :: h => told h ++ e.told

theorem moment_of_told {h : List Moment} {before after : List Event} {x : Event}
    (hsplit : told h = before ++ x :: after) :
    ∃ later e earlier pre post, h = later ++ e :: earlier ∧ e.told = pre ++ x :: post ∧
      before = told earlier ++ pre ∧ after = post ++ told later := by
  induction h generalizing after with
  | nil => simp [told] at hsplit
  | cons e h ih =>
      rcases split_append hsplit with ⟨rest, hrest, rfl⟩ | ⟨pre, rfl, hpre⟩
      · obtain ⟨later, w, earlier, pre, post, rfl, hw, rfl, rfl⟩ := ih hrest
        exact ⟨e :: later, w, earlier, pre, post, rfl, hw, rfl, by simp [told]⟩
      · exact ⟨[], e, h, pre, after, rfl, hpre, rfl, by simp [told]⟩

namespace State

variable {s t u : State} {a : Action} {h later earlier : List Moment} {e : Moment} {m n : Nat}
  {l l' : Loop} {d : DeploymentId} {events : List Event}

theorem Telling.of_told (hp : s.perform a = some u) : Telling s u a (Moment.told ⟨s, a⟩) := by
  obtain ⟨told, hevents, htelling⟩ := telling_of_perform hp
  have htold : Moment.told ⟨s, a⟩ = told := by simp [Moment.told, hp, hevents]
  exact htold ▸ htelling

theorem events_of_perform (hp : s.perform a = some u) :
    u.world.events = s.world.events ++ Moment.told ⟨s, a⟩ := by
  obtain ⟨told, hevents, -⟩ := telling_of_perform hp
  simp [Moment.told, hp, hevents]

theorem events_of_trace (ht : Trace s h t) : t.world.events = s.world.events ++ told h := by
  induction ht with
  | start => simp [told]
  | step _ hp ih => rw [events_of_perform hp, ih, told, List.append_assoc]

theorem config_of_trace (ht : Trace s h t) : t.self.config = s.self.config := by
  induction ht with
  | start => rfl
  | step _ hp ih => rw [(clock_of_perform hp).1, ih]

/-! ### Names of deployments -/

/-- No two deployments have the same name. -/
def Distinct (s : State) : Prop := (s.self.loops.map (·.deployment)).Nodup

theorem distinct_of_perform (hu : u.Distinct) (hp : s.perform a = some u) : s.Distinct := by
  obtain ⟨told, htells⟩ := told_of_perform hp
  unfold Distinct at hu
  rw [htells.started] at hu
  exact hu.sublist (List.sublist_append_left ..)

theorem distinct_of_trace (ht : Trace s h t) (hd : t.Distinct) : s.Distinct := by
  induction ht with
  | start => exact hd
  | step _ hp ih => exact ih (distinct_of_perform hd hp)

theorem Distinct.eq (hd : s.Distinct) (hm : s.self.loops[m]? = some l)
    (hn : s.self.loops[n]? = some l') (h : l.deployment = l'.deployment) : m = n := by
  have hlt : m < (s.self.loops.map (·.deployment)).length := by
    simpa using (List.getElem?_eq_some_iff.mp hm).1
  exact (List.getElem?_inj hlt hd).mp (by simp [hm, hn, h])

/-! ### One loop -/

/-- How the `m`-th of the loops that there are after an action has got there, and what the action
tells of its deployment. -/
inductive Reports (s : State) (m : Nat) (l' : Loop) : Action → List Milestone → Prop
  | fails (l : Loop) (here : s.self.loops[m]? = some l) (attempt : UInt32) (session : SessionId)
      (k deadline : Nat) (attempting : l.stage = .attempting attempt session k deadline)
      (after : l' = { l with
        stage := .backingOff attempt
          (s.world.now + (s.self.config.backoff.delay attempt).ceilMillis) }) :
      Reports s m l' (.step (.loop m)) [.failed attempt.toNat]
  | completes (l : Loop) (here : s.self.loops[m]? = some l) (attempt : UInt32)
      (trying : (∃ session k deadline, l.stage = .attempting attempt session k deadline) ∨
        ∃ x reply, l.stage = .settingUp attempt x reply) (outcome : Outcome)
      (after : l' = { l with stage := .finished (some outcome) }) :
      Reports s m l' (.step (.loop m)) [.completed attempt.toNat]
  | moves (l : Loop) (here : s.self.loops[m]? = some l) (stage : LoopStage)
      (moves : Moves s.world.now l stage) (after : l' = { l with stage }) :
      Reports s m l' (.step (.loop m)) []
  | starts {a : Action} (new : m = s.self.loops.length) (ready : l'.stage = .ready 1) :
      Reports s m l' a [.started]
  | stays {a : Action} (l : Loop) (here : s.self.loops[m]? = some l) (other : a ≠ .step (.loop m))
      (deployment : l'.deployment = l.deployment) (stage : l'.stage = l.stage)
      (cancelled : l.cancelled = true → l'.cancelled = true) : Reports s m l' a []

@[simp] theorem milestones_failureEvents (attempt : UInt32) (session : SessionId) (f : Failure) :
    milestones d (failureEvents l attempt session f s) =
      if l.deployment = d then [.failed attempt.toNat] else [] := by
  unfold failureEvents milestones
  split <;> by_cases hd : l.deployment = d <;> simp [List.filterMap_cons, Event.milestone?, hd]

@[simp] theorem milestones_completion (attempt : UInt32) (x : Execution) (now : Nat) :
    milestones d [completion l attempt x now] =
      if l.deployment = d then [.completed attempt.toNat] else [] := by
  unfold milestones completion
  by_cases hd : l.deployment = d <;> simp [Event.milestone?, hd]

@[simp] theorem milestones_startEvents (request : Request) :
    milestones d (startEvents request s) =
      if s.world.mintDeployment.1 = d then [.started] else [] := by
  unfold startEvents supersession milestones
  split <;> by_cases hd : s.world.mintDeployment.1 = d <;>
    simp [List.filterMap_cons, Event.milestone?, hd]

theorem milestones_of_aside (aside : ∀ e ∈ events, e.isAside = true) :
    milestones d events = [] := by
  refine List.filterMap_eq_nil_iff.mpr fun e he => ?_
  have := aside e he
  cases e <;> first | rfl | cases this

/-- A loop that was there before, when another loop goes on or a new one starts. -/
theorem reports_of_other {x : Loop} (hd : s.Distinct) (hn : s.self.loops[n]? = some x)
    (hl : s.self.loops[m]? = some l) (hne : m ≠ n) : x.deployment ≠ l.deployment :=
  fun h => hne (hd.eq hl hn h.symm)

theorem reports_of_telling (ht : Telling s u a events) (hu : u.Distinct) (hs : s.Distinct)
    (hl' : u.self.loops[m]? = some l') : Reports s m l' a (milestones l'.deployment events) := by
  cases ht with
  | @fails n l attempt session k deadline f here attempting loops =>
      rw [loops] at hl'
      rcases getElem?_setLoop here hl' with ⟨rfl, rfl⟩ | ⟨hne, hl'⟩
      · simpa using .fails l here attempt session k deadline attempting rfl
      · have hother := reports_of_other hs here hl' hne
        simpa [hother] using .stays l' hl' (by simpa using hne.symm) rfl rfl id
  | @completes n l attempt x here trying loops =>
      rw [loops] at hl'
      rcases getElem?_setLoop here hl' with ⟨rfl, rfl⟩ | ⟨hne, hl'⟩
      · simpa using .completes l here attempt trying _ rfl
      · have hother := reports_of_other hs here hl' hne
        simpa [hother] using .stays l' hl' (by simpa using hne.symm) rfl rfl id
  | @moves n l stage here hmoves loops =>
      rw [loops] at hl'
      rcases getElem?_setLoop here hl' with ⟨rfl, rfl⟩ | ⟨hne, hl'⟩
      · exact .moves l here stage hmoves rfl
      · exact .stays l' hl' (by simpa using hne.symm) rfl rfl id
  | @starts n c going loops =>
      rw [loops] at hl'
      rcases of_getElem?_concat hl' with hafter | ⟨hnew, rfl⟩
      · obtain ⟨⟨l, hl, hstays⟩, -⟩ := of_mem_loopsAfter hafter
        -- The new loop has another name than those that were there before.
        have hother : s.world.mintDeployment.1 ≠ l'.deployment := fun heq => by
          have hlt := (List.getElem?_eq_some_iff.mp hafter).1
          have hnew : u.self.loops[(loopsAfter s.self).length]? = some (newLoop c.request s) := by
            simp [loops]
          exact Nat.ne_of_lt hlt (hu.eq (loops ▸ hl') hnew heq.symm)
        rw [milestones_startEvents, if_neg hother]
        exact .stays l hl (by simp) hstays.deployment hstays.stage hstays.cancelled
      · rw [length_loopsAfter] at hnew
        simpa [newLoop] using .starts hnew rfl
  | aside other aside loops =>
      rw [milestones_of_aside aside]
      rcases loops with loops | loops
      · exact .stays l' (loops ▸ hl') (other m) rfl rfl id
      · obtain ⟨l, hl, rfl⟩ := getElem?_cancelled (loops ▸ hl')
        exact .stays l hl (other m) rfl rfl fun _ => rfl

/-- An action tells nothing of a deployment that there is not after it. -/
theorem milestones_of_telling (ht : Telling s u a events)
    (hd : d ∉ u.self.loops.map (·.deployment)) : milestones d events = [] := by
  have other {m : Nat} {x : Loop} (hx : u.self.loops[m]? = some x) : x.deployment ≠ d :=
    fun h => hd (h ▸ List.mem_map_of_mem (List.mem_of_getElem? hx))
  have there {n : Nat} {l : Loop} {stage : LoopStage} (here : s.self.loops[n]? = some l)
      (loops : u.self.loops = (s.self.setLoop n stage).loops) : l.deployment ≠ d :=
    other (m := n) (x := { l with stage }) (by simp [loops, Orchestrator.setLoop, here])
  cases ht with
  | fails here attempting loops => simp [there here loops]
  | completes here trying loops => simp [there here loops]
  | moves => rfl
  | @starts n c going loops =>
      have hnew : s.world.mintDeployment.1 ≠ d :=
        other (m := (loopsAfter s.self).length) (x := newLoop c.request s) (by simp [loops])
      rw [milestones_startEvents, if_neg hnew]
  | aside other aside => exact milestones_of_aside aside

/-! ### Whole runs -/

theorem milestones_of_trace (ht : Trace s h t) (hd : d ∉ t.self.loops.map (·.deployment)) :
    milestones d (told h) = [] := by
  induction ht with
  | start => rfl
  | step _ hp ih =>
      obtain ⟨more, htells⟩ := told_of_perform hp
      rw [told, milestones_append, milestones_of_telling (.of_told hp) hd, List.append_nil]
      refine ih fun h => hd ?_
      rw [htells.started]
      exact List.mem_append_left _ h

/-- The milestones that a loop has told when it is at a stage. -/
def Accounts (told : List Milestone) : LoopStage → Prop
  | .ready attempt | .attempting attempt .. | .settingUp attempt .. =>
    0 < attempt.toNat ∧ told = Milestone.failures (attempt.toNat - 1)
  | .backingOff attempt _ => told = Milestone.failures attempt.toNat
  | .finished none => ∃ k, told = Milestone.failures k
  | .finished (some _) => ∃ k, told = Milestone.narrative k

/-- What a loop has told is the beginning of a narrative. -/
theorem Accounts.exists_narrative {told : List Milestone} {stage : LoopStage}
    (ha : Accounts told stage) : ∃ k, told <+: Milestone.narrative k := by
  have failures (k : Nat) : Milestone.failures k <+: Milestone.narrative k :=
    List.prefix_append ..
  cases stage with
  | ready attempt => exact ⟨_, ha.2 ▸ failures _⟩
  | attempting attempt => exact ⟨_, ha.2 ▸ failures _⟩
  | settingUp attempt => exact ⟨_, ha.2 ▸ failures _⟩
  | backingOff attempt => exact ⟨_, (show told = _ from ha) ▸ failures _⟩
  | finished outcome =>
      cases outcome with
      | none =>
          obtain ⟨k, rfl⟩ := ha
          exact ⟨k, failures k⟩
      | some o =>
          obtain ⟨k, rfl⟩ := ha
          exact ⟨k, List.prefix_rfl⟩

/-- A step of a loop that tells nothing leaves what it has told in order. -/
theorem Accounts.moves {told : List Milestone} {stage : LoopStage} (ha : Accounts told l.stage)
    (hm : Moves s.world.now l stage) (here : s.self.loops[n]? = some l)
    (counts : Moment.overflows ⟨s, .step (.loop n)⟩ = false) : Accounts told stage := by
  cases hm with
  | begins attempt session k deadline ready =>
      rw [ready] at ha
      exact ha
  | setsUp attempt session k deadline attempting =>
      rw [attempting] at ha
      exact ha
  | retries attempt due waiting going =>
      rw [waiting] at ha
      have hne : attempt ≠ UInt32.ofNat (UInt32.size - 1) := by
        simpa [Moment.overflows, here, waiting, going] using counts
      have hnext : (attempt + 1).toNat = attempt.toNat + 1 := by
        have hlt : attempt.toNat ≠ UInt32.size - 1 := fun h => hne (by simp [← h])
        have := attempt.toNat_lt
        rw [UInt32.toNat_add, UInt32.toNat_one]
        simp only [UInt32.size] at hlt
        omega
      exact ⟨by omega, by rw [hnext]; exact ha⟩
  | stops cancelled idle =>
      obtain ⟨attempt, hs⟩ | ⟨attempt, due, hs⟩ := idle
      · rw [hs] at ha
        exact ⟨_, ha.2⟩
      · rw [hs] at ha
        exact ⟨_, ha⟩

/-- A loop with an attempt that has not failed has told the failures of those before. -/
theorem Accounts.of_trying {told : List Milestone} {attempt : UInt32}
    (ha : Accounts told l.stage)
    (trying : (∃ session k deadline, l.stage = .attempting attempt session k deadline) ∨
      ∃ x reply, l.stage = .settingUp attempt x reply) :
    0 < attempt.toNat ∧ told = Milestone.failures (attempt.toNat - 1) := by
  obtain ⟨session, k, deadline, hs⟩ | ⟨x, reply, hs⟩ := trying
  · rw [hs] at ha
    exact ha
  · rw [hs] at ha
    exact ha

theorem not_mem_of_starts (hd : u.Distinct) (hp : s.perform a = some u)
    (hl : u.self.loops[s.self.loops.length]? = some l) :
    l.deployment ∉ s.self.loops.map (·.deployment) := by
  obtain ⟨more, htells⟩ := told_of_perform hp
  unfold Distinct at hd
  have hname : (u.self.loops.map (·.deployment))[s.self.loops.length]? = some l.deployment := by
    simp [hl]
  rw [htells.started] at hd hname
  rw [List.getElem?_append_right (by simp)] at hname
  exact fun h => (List.nodup_append.mp hd).2.2 _ h _ (List.mem_of_getElem? hname) rfl

/-- What a loop has told by now agrees with its stage. -/
theorem accounts_of_trace (hs : s.IsStart) (ht : Trace s h t) (hd : t.Distinct)
    (counts : ∀ e ∈ h, e.overflows = false) (hl : t.self.loops[m]? = some l) :
    Accounts (milestones l.deployment (told h)) l.stage := by
  induction ht generalizing l with
  | start => simp [hs.loops_eq_nil] at hl
  | @step h t u a ht hp ih =>
      have hd' := distinct_of_perform hd hp
      have ih {l : Loop} (hl : t.self.loops[m]? = some l) := ih hd'
        (fun e he => counts e (List.mem_cons_of_mem _ he)) hl
      rw [told, milestones_append]
      have hreports := reports_of_telling (.of_told hp) hd hd' hl
      generalize hmore : milestones l.deployment (Moment.told ⟨t, a⟩) = more at hreports
      cases hreports with
      | fails x here attempt session k deadline attempting after =>
          subst after
          obtain ⟨hpos, hx⟩ := (ih here).of_trying (.inl ⟨session, k, deadline, attempting⟩)
          exact hx ▸ (Milestone.failures_eq hpos).symm
      | completes x here attempt trying outcome after =>
          subst after
          obtain ⟨hpos, hx⟩ := (ih here).of_trying trying
          refine ⟨attempt.toNat - 1, ?_⟩
          rw [hx, Milestone.narrative, Nat.sub_add_cancel hpos]
      | moves x here stage moves after =>
          subst after
          rw [List.append_nil]
          exact (ih here).moves moves here (counts _ List.mem_cons_self)
      | starts new ready =>
          subst new
          rw [ready, milestones_of_trace ht (not_mem_of_starts hd hp hl)]
          exact ⟨by decide, rfl⟩
      | stays x here other deployment stage =>
          rw [List.append_nil, deployment, stage]
          exact ih here

/-- What is told of a deployment in a run is the beginning of a narrative. -/
theorem narrative_of_trace (hs : s.IsStart) (ht : Trace s h t) (hd : t.Distinct)
    (counts : ∀ e ∈ h, e.overflows = false) (d : DeploymentId) :
    ∃ k, milestones d (told h) <+: Milestone.narrative k := by
  by_cases hmem : d ∈ t.self.loops.map (·.deployment)
  · obtain ⟨l, hl, rfl⟩ := List.mem_map.mp hmem
    obtain ⟨m, hm⟩ := List.getElem?_of_mem hl
    exact (accounts_of_trace hs ht hd counts hm).exists_narrative
  · exact ⟨0, milestones_of_trace ht hmem ▸ List.nil_prefix⟩

theorem pairwise_milestones (hs : s.IsStart) (ht : Trace s h t) (hd : t.Distinct)
    (counts : ∀ e ∈ h, e.overflows = false) (d : DeploymentId) :
    (milestones d (told h)).Pairwise fun x y => x.rank < y.rank := by
  obtain ⟨k, hk⟩ := narrative_of_trace hs ht hd counts d
  exact (Milestone.pairwise_narrative k).sublist hk.sublist

theorem announced_of_trace (ht : Trace s h t) : Announced (told h) := by
  induction ht with
  | start => exact .of_plain (by simp [told])
  | step _ hp ih => exact ih.append (Telling.of_told hp).announced

theorem failed_of_trace {session : SessionId} {attempt : UInt32} {error kind : String}
    {retry : UInt64} {rotated : Bool} (ht : Trace s h t)
    (capped : s.self.config.backoff.cap.millis < 2 ^ 64)
    (he : .attemptFailed d session attempt error kind retry rotated ∈ told h) :
    retry.toNat = (s.self.config.backoff.delay attempt).millis ∧
      (rotated = true ↔ Signature.saysLost error = true ∨ 0 < s.self.config.rotationThreshold ∧
        s.self.config.rotationThreshold.toNat ∣ attempt.toNat) := by
  obtain ⟨before, after, hsplit⟩ := List.append_of_mem he
  obtain ⟨later, e, earlier, pre, post, rfl, htold, -⟩ := moment_of_told hsplit
  obtain ⟨hearlier, u, hp, -⟩ := ht.split
  have hmem : .attemptFailed d session attempt error kind retry rotated ∈ e.told := by simp [htold]
  obtain ⟨n, l, k, deadline, f, -, -, -, -, -, -, rfl, rfl, rfl⟩ :=
    (Telling.of_told hp).of_attemptFailed hmem
  rw [config_of_trace hearlier]
  exact ⟨Backoff.toNat_millis_delay _ capped attempt, rotates_iff _ attempt f⟩

theorem retry_le_of_trace {before between after : List Event} {session session' : SessionId}
    {attempt attempt' : UInt32} {error error' kind kind' : String} {retry retry' : UInt64}
    {rotated rotated' : Bool} (hs : s.IsStart) (ht : Trace s h t) (hd : t.Distinct)
    (counts : ∀ e ∈ h, e.overflows = false) (capped : s.self.config.backoff.cap.millis < 2 ^ 64)
    (hsplit : told h = before ++ .attemptFailed d session attempt error kind retry rotated ::
      (between ++ .attemptFailed d session' attempt' error' kind' retry' rotated' :: after)) :
    retry ≤ retry' := by
  have he : .attemptFailed d session attempt error kind retry rotated ∈ told h := by simp [hsplit]
  have he' : .attemptFailed d session' attempt' error' kind' retry' rotated' ∈ told h := by
    simp [hsplit]
  have hpairwise := pairwise_milestones hs ht hd counts d
  rw [hsplit] at hpairwise
  simp only [milestones, List.filterMap_append, List.filterMap_cons, Event.milestone?,
    if_true] at hpairwise
  have hlt := List.rel_of_pairwise_cons (List.pairwise_append.mp hpairwise).2.1
    (List.mem_append_right _ List.mem_cons_self)
  have hle : attempt ≤ attempt' := Nat.le_of_lt hlt
  rw [UInt64.le_iff_toNat_le, (failed_of_trace ht capped he).1, (failed_of_trace ht capped he').1]
  exact Duration.millis_le (Backoff.delay_mono _ hle)

/-! ### Loops that are cancelled -/

/-- How many milestones a loop that is cancelled can still tell. -/
def LoopStage.left : LoopStage → Nat
  | .attempting .. | .settingUp .. => 1
  | _ => 0

/-- A loop that is cancelled tells at most one more milestone. -/
theorem curbed_of_trace (ht : Trace u later t) (hd : t.Distinct)
    (hl : u.self.loops[m]? = some l) (hc : l.cancelled = true) :
    ∃ l', t.self.loops[m]? = some l' ∧ l'.deployment = l.deployment ∧ l'.cancelled = true ∧
      (milestones l.deployment (told later)).length + LoopStage.left l'.stage ≤
        LoopStage.left l.stage := by
  induction ht with
  | start => exact ⟨l, hl, rfl, hc, by simp [told, milestones]⟩
  | @step later t v a ht hp ih =>
      obtain ⟨x, hx, hdeployment, hxc, hle⟩ := ih (distinct_of_perform hd hp)
      obtain ⟨l', hl', hsame, -⟩ := loop_of_perform hx hp
      have hreports := reports_of_telling (.of_told hp) hd (distinct_of_perform hd hp) hl'
      rw [hsame.trans hdeployment] at hreports
      refine ⟨l', hl', hsame.trans hdeployment, ?_⟩
      rw [told, milestones_append, List.length_append]
      generalize milestones l.deployment (Moment.told ⟨t, a⟩) = more at hreports ⊢
      cases hreports with
      | fails y here attempt session k deadline attempting after =>
          obtain rfl := Option.some.inj (hx.symm.trans here)
          subst after
          exact ⟨hxc, by simpa [LoopStage.left, attempting] using hle⟩
      | completes y here attempt trying outcome after =>
          obtain rfl := Option.some.inj (hx.symm.trans here)
          subst after
          obtain ⟨session, k, deadline, hs⟩ | ⟨e, reply, hs⟩ := trying
          · exact ⟨hxc, by simpa [LoopStage.left, hs] using hle⟩
          · exact ⟨hxc, by simpa [LoopStage.left, hs] using hle⟩
      | moves y here stage moves after =>
          obtain rfl := Option.some.inj (hx.symm.trans here)
          subst after
          refine ⟨hxc, ?_⟩
          cases moves with
          | begins attempt session k deadline ready going =>
              rw [hxc] at going
              cases going
          | setsUp attempt session k deadline attempting =>
              simpa [LoopStage.left, attempting] using hle
          | retries attempt due waiting going =>
              rw [hxc] at going
              cases going
          | stops =>
              refine Nat.le_trans ?_ hle
              simp [LoopStage.left]
      | starts new =>
          have := (List.getElem?_eq_some_iff.mp hx).1
          omega
      | stays y here other deployment stage cancelled =>
          obtain rfl := Option.some.inj (hx.symm.trans here)
          exact ⟨cancelled hxc, by simpa [stage] using hle⟩

theorem milestones_of_cancelled (ht : Trace u later t) (hd : t.Distinct)
    (hl : u.self.loops[m]? = some l) (hc : l.cancelled = true) :
    (milestones l.deployment (told later)).length ≤ 1 := by
  obtain ⟨l', -, -, -, hle⟩ := curbed_of_trace ht hd hl hc
  have : LoopStage.left l.stage ≤ 1 := by
    unfold LoopStage.left
    split <;> omega
  omega

theorem cancelled_of_closed (hs : s.IsStart) (ht : Trace s h t) (hclosed : t.self.isClosed = true)
    (hl : t.self.loops[m]? = some l) : l.cancelled = true := by
  induction ht generalizing l with
  | start => simp [hs.loops_eq_nil] at hl
  | @step h t u a ht hp ih =>
      rcases closing_of_perform hp with hsame | ⟨-, hall⟩
      · have hclosed' : t.self.isClosed = true := hsame.symm.trans hclosed
        cases looping_of_perform hp with
        | moves n y stage here step loops =>
            rcases getElem?_setLoop here (loops ▸ hl) with ⟨rfl, rfl⟩ | ⟨-, hl⟩
            · exact (ih hclosed' here : y.cancelled = true)
            · exact ih hclosed' hl
        | starts n c here entering going =>
            rw [hclosed'] at going
            cases going
        | closes loops =>
            obtain ⟨x, -, rfl⟩ := getElem?_cancelled (loops ▸ hl)
            rfl
        | stays loops => exact ih hclosed' (loops ▸ hl)
      · exact hall l (List.mem_of_getElem? hl)

theorem deployments_of_closed (ht : Trace u later t) (hclosed : u.self.isClosed = true) :
    t.self.loops.map (·.deployment) = u.self.loops.map (·.deployment) := by
  induction ht with
  | start => rfl
  | step ht hp ih =>
      rw [← ih]
      exact deployments_of_perform hp fun _ _ => isClosed_of_trace hclosed ht

/-- Once it is told that a deployment is superseded, at most one more milestone of it is told. -/
theorem milestones_of_superseded {before after : List Event} {d' : DeploymentId}
    (ht : Trace s h t) (hd : t.Distinct) (hsplit : told h = before ++ .superseded d d' :: after) :
    (milestones d after).length ≤ 1 := by
  obtain ⟨later, e, earlier, pre, post, rfl, he, rfl, rfl⟩ := moment_of_told hsplit
  obtain ⟨-, u, hp, hlater⟩ := ht.split
  obtain ⟨request, m, l, hsup, rfl, loops, session, message, files, rfl⟩ :=
    (Telling.of_told hp).of_superseded he
  obtain ⟨n, hactive, hn⟩ := Option.bind_eq_some_iff.mp hsup
  obtain ⟨l', hl', hpair⟩ := Option.map_eq_some_iff.mp hn
  obtain ⟨rfl, rfl⟩ := Prod.mk.inj hpair
  have hl : u.self.loops[n]? = some { l' with cancelled := true } := by
    rw [loops]
    refine getElem?_concat_of_some ?_
    simp [loopsAfter, superseded?, hactive, hl']
  have hle := milestones_of_cancelled hlater hd hl rfl
  -- What is told besides at that moment is the start of another deployment.
  have hother : e.state.world.mintDeployment.1 ≠ l'.deployment := fun heq => by
    have hnew : u.self.loops[(loopsAfter e.state.self).length]? =
        some (newLoop request e.state) := by simp [loops]
    have heq : { l' with cancelled := true }.deployment = (newLoop request e.state).deployment :=
      heq.symm
    have hlt := (List.getElem?_eq_some_iff.mp hl').1
    have := (distinct_of_trace hlater hd).eq hl hnew heq
    rw [length_loopsAfter] at this
    omega
  simpa [milestones, Event.milestone?, hother] using hle

theorem isClosed_shutdown : s.shutdown.self.isClosed = true := by
  rw [(shutdown_frame s).1]
  unfold shutSelf
  split
  · assumption
  · simp [Orchestrator.isClosed]

theorem milestones_of_shutdown (hs : s.IsStart) (ht : Trace s (later ++ e :: earlier) t)
    (hd : t.Distinct) (he : e.action = .shutdown) (d : DeploymentId) :
    (milestones d (told later)).length ≤ 1 := by
  obtain ⟨hearlier, u, hp, hlater⟩ := ht.split
  have hclosed : u.self.isClosed = true := by
    rw [he] at hp
    obtain rfl := Option.some.inj hp
    exact isClosed_shutdown
  by_cases hmem : d ∈ u.self.loops.map (·.deployment)
  · obtain ⟨l, hl, rfl⟩ := List.mem_map.mp hmem
    obtain ⟨m, hm⟩ := List.getElem?_of_mem hl
    exact milestones_of_cancelled hlater hd hm
      (cancelled_of_closed hs (hearlier.step hp) hclosed hm)
  · rw [← deployments_of_closed hlater hclosed] at hmem
    simp [milestones_of_trace hlater hmem]

end State

end PreviewDeploy
