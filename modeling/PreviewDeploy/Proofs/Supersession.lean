import PreviewDeploy.Proofs.Callers
import PreviewDeploy.Proofs.Events
import PreviewDeploy.Proofs.TransactionOrder

/-!
# Superseded deployments

A loop whose deployment is superseded begins no attempt any more, but it waits for the one that it
has begun.  When that attempt ends the loop still acts on it: after a failure it replaces the
session or forgets the instance, and after a success it arms the monitor, though the session, the
instance and the monitor are those of the newer deployment by then.  This is the one way in which
such a loop changes them, and it happens at most once (`State.superseded_loop`).
-/

namespace PreviewDeploy

/-- The `m`-th loop ends an attempt at a moment, and so changes the session, the known instance or
the monitor: after a failure if the session is replaced or an instance is known, and after a
success if the instance is new or the monitor is not armed. -/
def Moment.disturbs (m : Nat) (e : Moment) : Bool :=
  match e.action with
  | .step (.loop n) =>
    match e.state.self.loops[n]?.map Loop.stage with
    | some (.attempting attempt _ k deadline) =>
      match e.state.attemptResult? k deadline with
      | some (.ok x) => n = m && (x.fresh || !e.state.self.monitor.isArmed)
      | some (.error f) =>
        n = m && (State.rotates e.state.self.config attempt f || e.state.identity.inst.isSome)
      | none => false
    | _ => false
  | _ => false

theorem Moment.superseded?_eq_some {e : Moment} {m : Nat} {told : Event} :
    e.superseded? = some (m, told) ↔ ∃ n c l, e.action = .step (.caller n) ∧
      e.state.self.callers[n]? = some c ∧ c.stage = .entering ∧
      e.state.self.isClosed = false ∧ e.state.self.slot = none ∧
      e.state.self.active = some m ∧ e.state.self.loops[m]? = some l ∧
      told = .superseded l.deployment e.state.world.mintDeployment.1 := by
  constructor
  · intro h
    unfold superseded? at h
    split at h
    · rename_i n haction
      split at h
      · rename_i hstage
        obtain ⟨c, hc, hs⟩ := Option.map_eq_some_iff.mp hstage
        split at h
        · cases h
        · rename_i hfree
          simp only [Bool.or_eq_true, not_or, Bool.not_eq_true, Option.isSome_eq_false_iff,
            Option.isNone_iff_eq_none] at hfree
          obtain ⟨⟨k, l⟩, hkl, hmap⟩ := Option.map_eq_some_iff.mp h
          obtain ⟨rfl, rfl⟩ := Prod.mk.inj hmap
          obtain ⟨j, hactive, hj⟩ := Option.bind_eq_some_iff.mp hkl
          obtain ⟨l', hl', hpair⟩ := Option.map_eq_some_iff.mp hj
          obtain ⟨rfl, rfl⟩ := Prod.mk.inj hpair
          exact ⟨n, c, l', haction, hc, hs, hfree.1, hfree.2, hactive, hl', rfl⟩
      · cases h
    · cases h
  · rintro ⟨n, c, l, haction, hc, hs, going, free, hactive, hl, rfl⟩
    simp [superseded?, haction, hc, hs, going, free, State.superseded?, hactive, hl]

namespace State

variable {s t u : State} {a : Action} {later earlier : List Moment} {e : Moment} {m n : Nat}
  {l : Loop} {told : Event}

/-- The session, the known instance and the monitor stay as they are, and no replacement of the
session is told. -/
structure Spares (s u : State) : Prop where
  session : u.identity.session = s.identity.session
  inst : u.identity.inst = s.identity.inst
  monitor : u.self.monitor = s.self.monitor
  told : ∃ told, u.world.events = s.world.events ++ told ∧
    ∀ previous current reason, Event.sessionRotated previous current reason ∉ told

theorem Spares.of_silent (identity : u.identity = s.identity)
    (monitor : u.self.monitor = s.self.monitor) (events : u.world.events = s.world.events) :
    Spares s u :=
  ⟨by rw [identity], by rw [identity], monitor, [], by simp [events], by simp⟩

theorem monitor_arm_ne (inst : InstanceId) (now : Nat) (m : Monitor) : m.arm inst now ≠ m := by
  intro h
  have hlen := congrArg (·.watches.length) h
  unfold Monitor.arm Monitor.disarm Monitor.cancel at hlen
  cases harmed : m.armed with
  | none => simp [harmed] at hlen
  | some k => simp [harmed] at hlen

theorem armedSelf_monitor_eq_iff (x : Execution) (now : Nat) (o : Orchestrator) :
    (armedSelf x now o).monitor = o.monitor ↔ (x.fresh || !o.monitor.isArmed) = false := by
  unfold armedSelf
  split
  · rename_i h
    simp [monitor_arm_ne, h]
  · rename_i h
    simpa using h

/-- A success spares the others unless it arms the monitor. -/
theorem spares_succeed_iff (attempt : UInt32) (x : Execution) :
    Spares s (s.succeed n l attempt x) ↔ (x.fresh || !s.self.monitor.isArmed) = false := by
  by_cases hset : s.self.setup = []
  · obtain ⟨hself, hid, -, -, -, hevents⟩ := succeed_of_nil s hset n l attempt x
    have hmonitor : (s.succeed n l attempt x).self.monitor =
        (armedSelf x s.world.now s.self).monitor := by
      rw [hself]
      rfl
    rw [← armedSelf_monitor_eq_iff x s.world.now s.self, ← hmonitor]
    refine ⟨fun h => h.monitor, fun h => ⟨by rw [hid], by rw [hid], h, _, hevents, ?_⟩⟩
    simp [completion]
  · obtain ⟨⟨reply, hself⟩, hid, -, -, -, hevents⟩ := succeed_of_ne_nil s hset n l attempt x
    have hmonitor : (s.succeed n l attempt x).self.monitor =
        (armedSelf x s.world.now s.self).monitor := by
      rw [hself]
      rfl
    rw [← armedSelf_monitor_eq_iff x s.world.now s.self, ← hmonitor]
    exact ⟨fun h => h.monitor, fun h => .of_silent hid h hevents⟩

/-- A failure spares the others unless it replaces the session or an instance is known. -/
theorem spares_failAttempt_iff (attempt : UInt32) (session : SessionId) (f : Failure) :
    Spares s (s.failAttempt n l attempt session f) ↔
      (rotates s.self.config attempt f || s.identity.inst.isSome) = false := by
  cases hrotates : rotates s.self.config attempt f with
  | true =>
      simp only [Bool.true_or, Bool.true_eq_false, iff_false]
      intro h
      obtain ⟨told, hevents, hnot⟩ := h.told
      rw [(failAttempt_frame s n l attempt session f).2.2.2.2.2] at hevents
      obtain rfl := List.append_cancel_left hevents
      exact hnot s.identity.session.id s.world.mintSession.1.id (rotationReason attempt f)
        (by simp [failureEvents, hrotates])
  | false =>
      simp only [Bool.false_or, Option.isSome_eq_false_iff, Option.isNone_iff_eq_none]
      constructor
      · intro h
        rw [← h.inst]
        simp [identityAfter, hrotates]
      · intro h
        refine ⟨by simp [identityAfter, hrotates], by simp [identityAfter, hrotates, h],
          by simp [Orchestrator.setLoop], failureEvents l attempt session f s, by simp, ?_⟩
        simp [failureEvents, hrotates]

/-- What a step of a cancelled loop does to the others. -/
theorem spares_iff_of_stepLoop (hl : s.self.loops[n]? = some l) (hc : l.cancelled = true)
    (hp : s.stepLoop n = some u) :
    Spares s u ↔ Moment.disturbs n ⟨s, .step (.loop n)⟩ = false := by
  obtain ⟨l', hl', hs⟩ := stepLoop_cases hp
  obtain rfl := Option.some.inj (hl.symm.trans hl')
  cases hs with
  | stops cancelled idle =>
      have hspares : Spares s (s.endLoop n none) :=
        .of_silent (by simp) (by simp [Orchestrator.setLoop]) (by simp)
      obtain ⟨attempt, hs⟩ | ⟨attempt, due, hs⟩ := idle
      · simp [hspares, Moment.disturbs, hl, hs]
      · simp [hspares, Moment.disturbs, hl, hs]
  | begins attempt ready going =>
      rw [hc] at going
      cases going
  | succeeds attempt session k deadline attempting x result =>
      rw [spares_succeed_iff]
      simp [Moment.disturbs, hl, attempting, result]
  | fails attempt session k deadline attempting f result =>
      rw [spares_failAttempt_iff]
      simp [Moment.disturbs, hl, attempting, result]
  | retries attempt due waiting going =>
      rw [hc] at going
      cases going
  | completes attempt x reply settingUp =>
      have hspares : Spares s ((s.mapWorld (reportSetup reply.result)).complete n l attempt x) :=
        ⟨by simp, by simp, by simp [Orchestrator.setLoop], [completion l attempt x s.world.now],
          by simp, by simp [completion]⟩
      simp [hspares, Moment.disturbs, hl, settingUp]

/-! ### From the supersession on -/

/-- A loop at a stage that a cancelled loop does not leave for another attempt. -/
def IsEnding : LoopStage → Prop
  | .backingOff .. => True
  | .settingUp .. => True
  | .finished _ => True
  | _ => False

/-- A loop that was superseded at a stage: it is cancelled, and it is still at that stage or has
gone on towards its end. -/
def Retired (later : List Moment) (stage : LoopStage) (m : Nat) (t : State) : Prop :=
  ∃ l, t.self.loops[m]? = some l ∧ l.cancelled = true ∧
    (l.stage = stage ∧ (∀ w ∈ later, w.action ≠ .step (.loop m)) ∨ IsEnding l.stage)

/-- A cancelled loop that goes on comes closer to its end. -/
theorem isEnding_of_stepLoop (hl : s.self.loops[n]? = some l) (hc : l.cancelled = true)
    (hp : s.stepLoop n = some u) :
    ∃ l', u.self.loops[n]? = some l' ∧ l'.cancelled = true ∧ IsEnding l'.stage := by
  obtain ⟨l', hl', hs⟩ := stepLoop_cases hp
  obtain rfl := Option.some.inj (hl.symm.trans hl')
  -- Only the stage is another one.
  have ended (stage : LoopStage) (hself : u.self.loops = (s.self.setLoop n stage).loops)
      (hending : IsEnding stage) :
      ∃ l', u.self.loops[n]? = some l' ∧ l'.cancelled = true ∧ IsEnding l'.stage :=
    ⟨{ l with stage }, by simp [hself, Orchestrator.setLoop, hl], hc, hending⟩
  cases hs with
  | stops => exact ended (.finished none) (by simp [Orchestrator.setLoop]) trivial
  | begins attempt ready going =>
      rw [hc] at going
      cases going
  | succeeds attempt session k deadline attempting x result =>
      by_cases hset : s.self.setup = []
      · obtain ⟨hself, -⟩ := succeed_of_nil s hset n l attempt x
        exact ended (.finished (some x.inst.outcome)) (by simp [hself, Orchestrator.setLoop])
          trivial
      · obtain ⟨⟨reply, hself⟩, -⟩ := succeed_of_ne_nil s hset n l attempt x
        exact ended (.settingUp attempt x reply) (by simp [hself, Orchestrator.setLoop]) trivial
  | fails attempt =>
      exact ended (.backingOff attempt
        (s.world.now + (s.self.config.backoff.delay attempt).ceilMillis)) (by simp) trivial
  | retries attempt due waiting going =>
      rw [hc] at going
      cases going
  | completes attempt x =>
      exact ended (.finished (some x.inst.outcome)) (by simp [Orchestrator.setLoop]) trivial

theorem retired_of_perform {stage : LoopStage} (hr : Retired later stage m s)
    (hp : s.perform a = some u) : Retired (⟨s, a⟩ :: later) stage m u := by
  obtain ⟨l, hl, hc, hstage⟩ := hr
  by_cases ha : a = .step (.loop m)
  · subst ha
    obtain ⟨l', hl', hc', hending⟩ := isEnding_of_stepLoop hl hc hp
    exact ⟨l', hl', hc', .inr hending⟩
  · obtain ⟨l', hl', hstays⟩ := stays_of_perform hl hp ha
    refine ⟨l', hl', hstays.cancelled hc, ?_⟩
    rw [hstays.stage]
    refine hstage.imp_left fun ⟨hs, hnone⟩ => ⟨hs, fun w hw => ?_⟩
    rcases List.mem_cons.mp hw with rfl | hw
    · exact ha
    · exact hnone w hw

/-- The loop that is superseded at a moment is cancelled, and keeps its stage. -/
theorem retired_of_superseded (hsup : Moment.superseded? ⟨s, a⟩ = some (m, told))
    (hp : s.perform a = some u) :
    ∃ l, s.self.loops[m]? = some l ∧ told = .superseded l.deployment s.world.mintDeployment.1 ∧
      Retired [] l.stage m u := by
  obtain ⟨n, c, l, rfl, hc, entering, going, free, hactive, hl, htold⟩ :=
    Moment.superseded?_eq_some.mp hsup
  refine ⟨l, hl, htold, { l with cancelled := true }, ?_, rfl, .inl ⟨rfl, by simp⟩⟩
  obtain rfl := Option.some.inj ((stepCaller_of_free hc entering going free).symm.trans hp)
  simp only at hactive hl
  simp only [await_frame, startLoop_frame, Orchestrator.setCaller]
  refine getElem?_concat_of_some ?_
  simp [loopsAfter, State.superseded?, hactive, hl]

theorem attempting_of_disturbs (h : e.disturbs m = true) :
    e.action = .step (.loop m) ∧ ∃ l attempt session k deadline,
      e.state.self.loops[m]? = some l ∧ l.stage = .attempting attempt session k deadline := by
  unfold Moment.disturbs at h
  split at h
  · rename_i n haction
    split at h
    · rename_i attempt session k deadline hstage
      obtain ⟨l, hl, hs⟩ := Option.map_eq_some_iff.mp hstage
      have hn : n = m := by
        split at h
        · simp only [Bool.and_eq_true, decide_eq_true_eq] at h
          exact h.1
        · simp only [Bool.and_eq_true, decide_eq_true_eq] at h
          exact h.1
        · cases h
      subst hn
      exact ⟨haction, l, attempt, session, k, deadline, hl, hs⟩
    · cases h
  · cases h

/-- A retired loop that disturbs the others has not gone on before, and ends the attempt that it
had begun. -/
theorem Retired.of_disturbs {stage : LoopStage} (hr : Retired later stage m e.state)
    (h : e.disturbs m = true) :
    (∃ l, e.state.self.loops[m]? = some l ∧ l.stage = stage) ∧
      (∃ attempt session k deadline, stage = .attempting attempt session k deadline) ∧
      ∀ w ∈ later, w.disturbs m = false := by
  obtain ⟨-, l, attempt, session, k, deadline, hl, hs⟩ := attempting_of_disturbs h
  obtain ⟨l', hl', -, ⟨hsame, hnone⟩ | hending⟩ := hr
  · obtain rfl := Option.some.inj (hl.symm.trans hl')
    refine ⟨⟨l, hl, hsame⟩, ⟨attempt, session, k, deadline, hsame.symm.trans hs⟩, fun w hw => ?_⟩
    rw [Bool.eq_false_iff]
    exact fun hd => hnone w hw (attempting_of_disturbs hd).1
  · obtain rfl := Option.some.inj (hl.symm.trans hl')
    rw [hs] at hending
    cases hending

theorem retired_of_trace {stage : LoopStage} (hr : Retired [] stage m u) (ht : Trace u later t) :
    Retired later stage m t := by
  induction ht with
  | start => exact hr
  | step _ hp ih => exact retired_of_perform ih hp

/-- Once the deployment of a loop is superseded, the loop begins no attempt any more, and it spares
the session, the known instance and the monitor in every step but one that `Moment.disturbs`
describes.  That step ends the attempt which the loop had begun before, and there is at most one. -/
theorem superseded_loop (ht : Trace s (later ++ e :: earlier) t)
    (hsup : e.superseded? = some (m, told)) :
    (∃ u events, e.state.perform e.action = some u ∧
        u.world.events = e.state.world.events ++ events ∧
        events.filter Event.isSuperseded = [told]) ∧
      (∃ l, e.state.self.loops[m]? = some l ∧
        told = .superseded l.deployment e.state.world.mintDeployment.1 ∧
        ∀ w ∈ later, w.disturbs m = true →
          (∃ l', w.state.self.loops[m]? = some l' ∧ l'.stage = l.stage) ∧
            ∃ attempt session k deadline, l.stage = .attempting attempt session k deadline) ∧
      (∀ w ∈ later, ∀ k, ¬ w.Begins m k) ∧
      (∀ w ∈ later, w.action = .step (.loop m) → ∀ v, w.state.perform w.action = some v →
        (Spares w.state v ↔ w.disturbs m = false)) ∧
      later.Pairwise fun w w' => ¬ (w.disturbs m = true ∧ w'.disturbs m = true) := by
  obtain ⟨-, u, hp, hlater⟩ := ht.split
  obtain ⟨l, hl, htold, hr⟩ := retired_of_superseded hsup hp
  -- At each later moment the loop is retired.
  have retired (w : Moment) (hw : w ∈ later) :
      ∃ before, Retired before l.stage m w.state := by
    obtain ⟨after, before, -, hbefore, -⟩ := hlater.split_of_mem hw
    exact ⟨before, retired_of_trace hr hbefore⟩
  refine ⟨?_, ⟨l, hl, htold, fun w hw hd => ?_⟩, fun w hw k hb => ?_,
    fun w hw haction v hv => ?_, ?_⟩
  · obtain ⟨events, htells⟩ := told_of_perform hp
    exact ⟨u, events, hp, htells.events, by simpa [hsup] using htells.superseded⟩
  · obtain ⟨before, hretired⟩ := retired w hw
    obtain ⟨hsame, hattempting, -⟩ := hretired.of_disturbs hd
    exact ⟨hsame, hattempting⟩
  · obtain ⟨before, x, hx, hcancelled, -⟩ := retired w hw
    obtain ⟨x', attempt, -, hx', -, hgoing, -⟩ := hb
    obtain rfl := Option.some.inj (hx.symm.trans hx')
    rw [hcancelled] at hgoing
    cases hgoing
  · obtain ⟨before, x, hx, hcancelled, -⟩ := retired w hw
    obtain ⟨state, action⟩ := w
    cases haction
    exact spares_iff_of_stepLoop hx hcancelled hv
  · clear retired ht
    induction hlater with
    | start => exact .nil
    | step hbefore hp' ih =>
        refine List.pairwise_cons.mpr ⟨fun w hw hd => ?_, ih⟩
        have hfalse := ((retired_of_trace hr hbefore).of_disturbs hd.1).2.2 w hw
        rw [hd.2] at hfalse
        cases hfalse

/-- An orchestrator in a project without files that gives attempts up after three seconds, and
replaces the session after every failure. -/
def hasty : State :=
  .start 0 none { attemptTimeout := .ofMillis 3000, rotationThreshold := 1 } {} [] {}

/-- A first call goes away while its attempt waits for an instance, and a second one supersedes its
deployment; then the attempt is given up. -/
def race : List Action :=
  [.prepare { create := [⟨3500, .ok { success := true, runId := some "run-1" }⟩] },
    .call .allFiles, .step (.caller 0), .step (.loop 0), .step (.transaction 0), .pass 1000,
    .abandon 0, .call .allFiles, .step (.caller 1), .step (.loop 1), .pass 2000, .step (.loop 0)]

theorem trace_race : ∃ w after e earlier t told, Trace hasty (w :: after ++ e :: earlier) t ∧
    e.superseded? = some (0, told) ∧ w.disturbs 0 = true := by
  have hsup : (hasty.history race).map (·.superseded?.map (·.1)) =
      [none, none, none] ++ some 0 :: List.replicate 8 none := by
    decide +kernel
  have hdisturbs : (hasty.history race).head?.map (·.disturbs 0) = some true := by
    decide +kernel
  have hrun : (hasty.follow race).map (fun _ => ()) = some () := by
    decide +kernel
  obtain ⟨t, ht, -⟩ := trace_of_map hrun
  obtain ⟨later, rest, hsplit, hlater, hrest⟩ := List.map_eq_append_iff.mp hsup
  obtain ⟨e, earlier, rfl, he, -⟩ := List.map_eq_cons_iff.mp hrest
  obtain ⟨w, after, rfl, -, -⟩ := List.map_eq_cons_iff.mp hlater
  obtain ⟨⟨m, told⟩, htold, hm⟩ := Option.map_eq_some_iff.mp he
  obtain rfl : m = 0 := hm
  rw [hsplit] at ht hdisturbs
  exact ⟨w, after, e, earlier, t, told, ht, htold, by simpa using hdisturbs⟩

theorem superseded_loop_of_race : ∃ later e earlier t told, Trace hasty (later ++ e :: earlier) t ∧
    e.superseded? = some (0, told) ∧ (∃ w ∈ later, w.disturbs 0 = true) ∧
      ∃ l attempt session k deadline, e.state.self.loops[0]? = some l ∧
        l.stage = .attempting attempt session k deadline := by
  obtain ⟨w, after, e, earlier, t, told, ht, hsup, hd⟩ := trace_race
  obtain ⟨-, ⟨l, hl, -, hflight⟩, -⟩ := superseded_loop ht hsup
  obtain ⟨-, attempt, session, k, deadline, hstage⟩ := hflight w (List.mem_cons_self ..) hd
  exact ⟨w :: after, e, earlier, t, told, ht, hsup, ⟨w, List.mem_cons_self .., hd⟩,
    l, attempt, session, k, deadline, hl, hstage⟩

/-- A loop whose deployment is superseded does not always spare the session, the known instance
and the monitor. -/
theorem not_spares_of_superseded :
    ¬ ∀ (s t : State) (later earlier : List Moment) (e : Moment) (m : Nat) (told : Event),
      s.IsStart → Trace s (later ++ e :: earlier) t → e.superseded? = some (m, told) →
        ∀ w ∈ later, w.action = .step (.loop m) → ∀ v, w.state.perform w.action = some v →
          Spares w.state v := by
  intro h
  obtain ⟨w, after, e, earlier, t, told, ht, hsup, hd⟩ := trace_race
  have haction := (attempting_of_disturbs hd).1
  have hspares := h hasty t (w :: after) earlier e 0 told ⟨0, none, _, {}, [], {}, rfl⟩ ht hsup w
    (List.mem_cons_self ..) haction
  obtain ⟨-, u, hp, hlater⟩ := ht.split
  obtain ⟨l, -, -, hr⟩ := retired_of_superseded hsup hp
  cases hlater with
  | step hbefore hp' =>
      obtain ⟨x, hx, hcancelled, -⟩ := retired_of_trace hr hbefore
      simp only at haction
      subst haction
      rw [(spares_iff_of_stepLoop hx hcancelled hp').mp (hspares _ hp')] at hd
      cases hd

end State

end PreviewDeploy
