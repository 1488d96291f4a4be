import PreviewDeploy.Proofs.Monitoring

/-!
# The instance that is monitored

A success arms the monitor if the instance is new or no watch counts; a watch that asks for healing
and a shutdown take the watch that counts away; nothing else changes which instance is monitored
(`State.instance?_of_trace`).  So a deployment can be completed while another instance is monitored
than its own: it reused the instance while the monitor was armed for another one, or the monitor
has changed during the setup commands.  A success that comes after a shutdown arms the monitor
again, for an instance that nobody watches (`State.instance?_of_completed`).
-/

namespace PreviewDeploy

namespace Monitor

variable {m m' : Monitor} {n : Nat}

@[simp] theorem instance?_disarm : m.disarm.instance? = none := by
  simp [instance?]

@[simp] theorem instance?_arm (inst : InstanceId) (now : Nat) :
    (m.arm inst now).instance? = some inst := by
  have hlen : m.disarm.watches.length = m.watches.length := by simp
  simp only [instance?, arm, hlen, Option.bind_some]
  rw [← hlen, List.getElem?_concat_length, Option.map_some]

theorem instance?_of_modify (f : Watch → Watch) (hf : ∀ w, (f w).inst = w.inst)
    (armed : m'.armed = m.armed) (watches : m'.watches = m.watches.modify n f) :
    m'.instance? = m.instance? := by
  unfold instance?
  rw [armed, watches]
  cases m.armed with
  | none => rfl
  | some k =>
      simp only [Option.bind_some, List.getElem?_modify, Option.map_eq_map, Option.map_map]
      congr 1
      funext w
      simp only [Function.comp]
      split
      · exact hf w
      · rfl

@[simp] theorem instance?_setStage (stage : WatchStage) :
    (m.setStage n stage).instance? = m.instance? :=
  instance?_of_modify (fun w => { w with stage }) (fun _ => rfl) rfl rfl

@[simp] theorem instance?_close : m.close.instance? = m.instance? := by
  unfold instance? close
  cases m.armed with
  | none => rfl
  | some k =>
      simp only [Option.bind_some, List.getElem?_map, Option.map_map]
      rfl

end Monitor

namespace Moment

/-- What is monitored after a moment that changes this: an instance, or none. -/
def watched? (e : Moment) : Option (Option InstanceId) :=
  if e.heals || e.shuts then some none
  else
    match e.success? with
    | some (_, x) =>
      if x.fresh || !e.state.self.monitor.isArmed then some (some x.inst.id) else none
    | none => none

theorem Idle.watched?_eq {e : Moment} (h : e.Idle) : e.watched? = none := by
  simp [watched?, h.unsuccessful, h.calm, h.unshut]

end Moment

namespace State

variable {s t u : State} {a : Action} {h : List Moment} {x : Execution}

/-! ### The monitored instance over a run -/

theorem isArmed_eq (ho : s.self.Monitored) :
    s.self.monitor.isArmed = s.self.monitor.instance?.isSome := by
  unfold Monitor.isArmed Monitor.instance?
  cases harmed : s.self.monitor.armed with
  | none => rfl
  | some k => simp [List.getElem?_eq_getElem (ho.known k harmed)]

theorem instance?_armedSelf (now : Nat) (o : Orchestrator) :
    (armedSelf x now o).monitor.instance? =
      if x.fresh || !o.monitor.isArmed then some x.inst.id else o.monitor.instance? := by
  unfold armedSelf
  split <;> simp

/-- An action leaves the monitored instance as it is, unless it is one that says otherwise. -/
theorem instance?_of_perform (hp : s.perform a = some u) :
    u.self.monitor.instance? =
      (Moment.watched? ⟨s, a⟩).getD s.self.monitor.instance? := by
  cases watching_of_perform hp with
  | arms n x success monitor =>
      have hwatched : Moment.watched? ⟨s, .step (.loop n)⟩ =
          if x.fresh || !s.self.monitor.isArmed then some (some x.inst.id) else none := by
        simp [Moment.watched?, success, Moment.heals, Moment.shuts]
      rw [monitor, instance?_armedSelf, hwatched]
      split <;> rfl
  | ticks n w heals here ticks asks =>
      have unsuccessful : Moment.success? ⟨s, .step (.watch n)⟩ = none := rfl
      generalize u.self.monitor = monitor at ticks
      cases ticks with
      | stays stage =>
          have hwatched : Moment.watched? ⟨s, .step (.watch n)⟩ = none := by
            simp [Moment.watched?, asks, unsuccessful, Moment.shuts]
          simp [hwatched]
      | heals =>
          have hwatched : Moment.watched? ⟨s, .step (.watch n)⟩ = some none := by
            simp [Moment.watched?, asks]
          rw [hwatched]
          rfl
  | shuts going monitor =>
      have hwatched : Moment.watched? ⟨s, .shutdown⟩ = some none := by
        simp [Moment.watched?, Moment.shuts, going]
      rw [hwatched, monitor]
      simp
  | closes idle monitor =>
      rw [idle.watched?_eq, monitor]
      simp
  | stays idle monitor =>
      rw [idle.watched?_eq, monitor]
      rfl

/-- What is monitored is what the last moment says that changed it. -/
theorem instance?_of_trace (ht : Trace s h t) :
    t.self.monitor.instance? =
      (h.findSome? Moment.watched?).getD s.self.monitor.instance? := by
  induction ht with
  | start => rfl
  | step _ hp ih =>
      rw [instance?_of_perform hp, ih, List.findSome?_cons]
      split
      · rename_i hwatched
        rw [hwatched]
        rfl
      · rename_i hwatched
        rw [hwatched]
        rfl

/-- A closed orchestrator that monitors no instance does so until a loop succeeds, and monitors one
from then on. -/
theorem instance?_of_closed (ho : s.self.Monitored) (hclosed : s.self.isClosed = true)
    (hnone : s.self.monitor.instance? = none) (ht : Trace s h t) :
    t.self.monitor.instance? = none ↔ ∀ v ∈ h, v.success? = none := by
  induction ht with
  | start => simp [hnone]
  | @step h t u a ht hp ih =>
      have hmonitored := monitored_of_trace ho ht
      have hcalm : Moment.heals ⟨t, a⟩ = false :=
        heals_of_closed hmonitored (isClosed_of_trace hclosed ht)
      have hunshut : Moment.shuts ⟨t, a⟩ = false := by
        unfold Moment.shuts
        split
        · simp [isClosed_of_trace hclosed ht]
        · rfl
      rw [instance?_of_perform hp, List.forall_mem_cons, ← ih]
      unfold Moment.watched?
      rw [hcalm, hunshut]
      cases hsuccess : Moment.success? ⟨t, a⟩ with
      | none => simp
      | some y =>
          have hsome : t.self.monitor.isArmed = true → t.self.monitor.instance? ≠ none := by
            intro harmed
            rw [isArmed_eq hmonitored] at harmed
            exact Option.isSome_iff_ne_none.mp harmed
          cases hfresh : y.2.fresh with
          | true => simp [hfresh]
          | false =>
              cases harmed : t.self.monitor.isArmed with
              | true => simpa [hfresh, harmed] using hsome harmed
              | false => simp [hfresh]

end State

/-! ### Completed deployments -/

/-- After a success with an execution the monitor is armed for the instance of that, if it was not
armed for another instance before or the instance is new. -/
def Moment.ArmsFor (e : Moment) (x : Execution) : Prop :=
  x.fresh = true ∨ e.state.self.monitor.instance? = none ∨
    e.state.self.monitor.instance? = some x.inst.id

namespace State

variable {s u : State} {a : Action} {earlier : List Moment} {e : Moment} {n : Nat} {x : Execution}

theorem instance?_of_success (ho : s.self.Monitored)
    (hsuccess : Moment.success? ⟨s, a⟩ = some (n, x)) (hp : s.perform a = some u) :
    u.self.monitor.instance? = some x.inst.id ↔ Moment.ArmsFor ⟨s, a⟩ x := by
  obtain ⟨l, attempt, session, k, deadline, rfl, -⟩ := Moment.success?_eq_some.mp hsuccess
  have hwatched : Moment.watched? ⟨s, .step (.loop n)⟩ =
      if x.fresh || !s.self.monitor.isArmed then some (some x.inst.id) else none := by
    simp [Moment.watched?, hsuccess, Moment.heals, Moment.shuts]
  rw [instance?_of_perform hp, hwatched, isArmed_eq ho, Moment.ArmsFor]
  cases x.fresh with
  | true => simp
  | false =>
      cases s.self.monitor.instance? with
      | none => simp
      | some inst => simp

/-- The success that a completed deployment has had: it is the same moment, or the setup commands
were run in between. -/
theorem success_of_completed (hs : s.IsStart) (ht : Trace s (e :: earlier) u)
    (hcompleted : e.completed? = some (n, x)) :
    ∃ between first before, e :: earlier = between ++ first :: before ∧
      first.success? = some (n, x) ∧ ∀ w ∈ between, ∀ y, w.success? ≠ some (n, y) := by
  rcases Moment.completed?_eq_some.mp hcompleted with ⟨hsuccess, -⟩ | hset
  · exact ⟨[], e, earlier, rfl, hsuccess, by simp⟩
  · obtain ⟨l, attempt, reply, haction, hl, hstage, -⟩ := hset
    obtain ⟨hearlier, -⟩ := ht.last
    obtain ⟨later, first, before, rfl, hsuccess, hnone⟩ :=
      success_of_settingUp hs hearlier hl hstage
    refine ⟨e :: later, first, before, rfl, hsuccess, fun w hw y hy => ?_⟩
    obtain ⟨l', attempt', session, k, deadline, haction', hl', hstage', -⟩ :=
      Moment.success?_eq_some.mp hy
    rcases List.mem_cons.mp hw with rfl | hw
    · obtain rfl := Option.some.inj (hl.symm.trans hl')
      cases hstage.symm.trans hstage'
    · exact hnone w hw haction'

/-- When a deployment is told to be completed, its instance is monitored exactly if the last change
since its success was made for that instance, or if there was none and the success left the monitor
armed for it.  Once the orchestrator was shut down no instance is monitored until a loop succeeds,
and some instance is from then on. -/
theorem instance?_of_completed (hs : s.IsStart) (ht : Trace s (e :: earlier) u) :
    (∃ told, u.world.events = e.state.world.events ++ told ∧
        told.filterMap Event.completed? = (e.completed?.map (·.2.inst)).toList) ∧
      (∀ n x, e.completed? = some (n, x) →
        ∃ between first before, e :: earlier = between ++ first :: before ∧
          first.success? = some (n, x) ∧ (∀ w ∈ between, ∀ y, w.success? ≠ some (n, y)) ∧
          (u.self.monitor.instance? = some x.inst.id ↔
            match between.findSome? Moment.watched? with
            | some monitored => monitored = some x.inst.id
            | none => first.ArmsFor x)) ∧
      ∀ after w before, e :: earlier = after ++ w :: before → w.shuts = true →
        (u.self.monitor.instance? = none ↔ ∀ v ∈ after, v.success? = none) := by
  refine ⟨?_, fun n x hcompleted => ?_, fun after w before hsplit hshuts => ?_⟩
  · obtain ⟨-, hp⟩ := ht.last
    exact completions_of_perform hp
  · obtain ⟨between, first, before, hsplit, hsuccess, hlast⟩ :=
      success_of_completed hs ht hcompleted
    refine ⟨between, first, before, hsplit, hsuccess, hlast, ?_⟩
    rw [hsplit] at ht
    obtain ⟨hbefore, v, hv, hbetween⟩ := ht.split
    rw [instance?_of_trace hbetween]
    cases between.findSome? Moment.watched? with
    | some monitored => rfl
    | none => exact instance?_of_success (monitored_of_trace hs.monitored hbefore) hsuccess hv
  · rw [hsplit] at ht
    obtain ⟨hbefore, v, hv, hafter⟩ := ht.split
    have ho : v.self.Monitored :=
      monitored_of_perform (monitored_of_trace hs.monitored hbefore) hv
    -- The shutdown has closed the orchestrator and disarmed its monitor.
    obtain ⟨state, action⟩ := w
    unfold Moment.shuts at hshuts
    split at hshuts
    · rename_i haction
      subst haction
      have hgoing : state.self.isClosed = false := by simpa using hshuts
      have hself : v.self.monitor = state.self.monitor.close.disarm := by
        obtain rfl := Option.some.inj hv
        simp [shutSelf, hgoing]
      have hclosed : v.self.isClosed = true := by simp [Orchestrator.isClosed, hself]
      exact instance?_of_closed ho hclosed (by simp [hself]) hafter
    · cases hshuts

/-- The orchestrator is shut down while an attempt waits for an instance, and then the attempt
succeeds. -/
def lateSuccess : List Action :=
  [.prepare { create := [⟨2000, .ok
      { success := true, runId := some "run-1", previewUrl := some "https://run-1" }⟩] },
    .call .allFiles, .step (.caller 0), .step (.loop 0), .step (.transaction 0), .pass 1000,
    .shutdown, .pass 1000, .step (.transaction 0), .step (.loop 0)]

theorem trace_lateSuccess : ∃ u e after w before, Trace bare (e :: (after ++ w :: before)) u ∧
    w.shuts = true ∧ e.completed?.map (fun x => (x.1, x.2.inst.id)) = some (0, ⟨"run-1"⟩) ∧
      e.success?.isSome = true ∧ u.self.monitor.instance? = some ⟨"run-1"⟩ := by
  have hshuts : (bare.history lateSuccess).map Moment.shuts =
      false :: [false, false] ++ true :: List.replicate 6 false := by
    decide +kernel
  have hcompleted : (bare.history lateSuccess).head?.map (fun e =>
      (e.completed?.map fun x => (x.1, x.2.inst.id), e.success?.isSome)) =
        some (some (0, ⟨"run-1"⟩), true) := by
    decide +kernel
  have hrun : (bare.follow lateSuccess).map (·.self.monitor.instance?) =
      some (some ⟨"run-1"⟩) := by
    decide +kernel
  obtain ⟨u, hu, hinst⟩ := trace_of_map hrun
  obtain ⟨later, rest, hsplit, hlater, hrest⟩ := List.map_eq_append_iff.mp hshuts
  obtain ⟨w, before, rfl, hw, -⟩ := List.map_eq_cons_iff.mp hrest
  obtain ⟨e, after, rfl, -, -⟩ := List.map_eq_cons_iff.mp hlater
  rw [hsplit] at hu hcompleted
  simp only [List.cons_append, List.head?_cons, Option.map_some, Option.some.injEq,
    Prod.mk.injEq] at hcompleted
  exact ⟨u, e, after, w, before, hu, hw, hcompleted.1, hcompleted.2, hinst⟩

theorem instance?_of_completed_of_lateSuccess : ∃ u e after w before,
    Trace bare (e :: (after ++ w :: before)) u ∧ w.shuts = true ∧
      e.completed?.map (fun x => (x.1, x.2.inst.id)) = some (0, ⟨"run-1"⟩) ∧
      u.self.monitor.instance? ≠ none := by
  obtain ⟨u, e, after, w, before, hu, hw, hcompleted, hsuccess, -⟩ := trace_lateSuccess
  obtain ⟨-, -, hafter⟩ := instance?_of_completed isStart_bare hu
  refine ⟨u, e, after, w, before, hu, hw, hcompleted, fun hnone => ?_⟩
  have hunsuccessful := (hafter (e :: after) w before rfl hw).mp hnone e (List.mem_cons_self ..)
  rw [hunsuccessful] at hsuccess
  cases hsuccess

/-- An orchestrator that gives attempts up after three seconds. -/
def impatient : State := .start 0 none { attemptTimeout := .ofMillis 3000 } {} [] {}

/-- The instance of a first deployment is unhealthy at the second one.  An attempt is given up
while it waits for a new instance; that instance comes, and the next attempt reuses it. -/
def lateInstance : List Action :=
  [.prepare
      { create := [⟨0, .ok { success := true, runId := some "run-1", previewUrl := some "a" }⟩,
          ⟨3500, .ok { success := true, runId := some "run-2", previewUrl := some "b" }⟩]
        status := [⟨0, .ok { success := true, isHealthy := false }⟩] },
    .call .allFiles, .step (.caller 0), .step (.loop 0), .step (.transaction 0),
    .step (.transaction 0), .step (.loop 0), .step (.caller 0), .call .allFiles,
    .step (.caller 1), .step (.loop 1), .step (.transaction 1), .step (.transaction 1),
    .pass 3000, .step (.loop 1), .pass 1000, .step (.transaction 1), .step (.loop 1),
    .step (.loop 1), .step (.transaction 2), .step (.transaction 2), .step (.loop 1)]

/-- A deployment can be completed while the instance of another one is monitored, and after a
shutdown while any instance is. -/
theorem not_instance?_of_completed :
    (¬ ∀ (s u : State) (e : Moment) (earlier : List Moment) (n : Nat) (x : Execution),
      s.IsStart → Trace s (e :: earlier) u → e.completed? = some (n, x) →
        (∀ w ∈ earlier, w.shuts = false) → u.self.monitor.instance? = some x.inst.id) ∧
      ¬ ∀ (s u : State) (e : Moment) (earlier : List Moment) (n : Nat) (x : Execution),
        s.IsStart → Trace s (e :: earlier) u → e.completed? = some (n, x) →
          (∃ w ∈ earlier, w.shuts = true) → u.self.monitor.instance? = none := by
  constructor
  · intro h
    have hshuts : (impatient.history lateInstance).all (!·.shuts) = true := by
      decide +kernel
    have hcompleted : (impatient.history lateInstance).head?.bind (·.completed?.map
        fun x => (x.1, x.2.inst.id)) = some (1, ⟨"run-2"⟩) := by
      decide +kernel
    have hrun : (impatient.follow lateInstance).map (·.self.monitor.instance?) =
        some (some ⟨"run-1"⟩) := by
      decide +kernel
    obtain ⟨u, hu, hinst⟩ := trace_of_map hrun
    obtain ⟨e, he, hmap⟩ := Option.bind_eq_some_iff.mp hcompleted
    obtain ⟨⟨n, x⟩, hx, hname⟩ := Option.map_eq_some_iff.mp hmap
    obtain ⟨earlier, hearlier⟩ := List.head?_eq_some_iff.mp he
    rw [hearlier] at hu hshuts
    have hinst' := h impatient u e earlier n x ⟨0, none, _, {}, [], {}, rfl⟩ hu hx fun w hw => by
      simpa using List.all_eq_true.mp hshuts w (List.mem_cons_of_mem _ hw)
    rw [hinst, (Prod.mk.inj hname).2] at hinst'
    exact absurd hinst' (by decide)
  · intro h
    obtain ⟨u, e, after, w, before, hu, hw, hcompleted, -, hinst⟩ := trace_lateSuccess
    obtain ⟨⟨n, x⟩, hx, -⟩ := Option.map_eq_some_iff.mp hcompleted
    have hnone := h bare u e (after ++ w :: before) n x isStart_bare hu hx ⟨w, by simp, hw⟩
    rw [hinst] at hnone
    cases hnone

end State

end PreviewDeploy
