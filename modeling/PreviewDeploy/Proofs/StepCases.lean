import PreviewDeploy.Orchestrator.Run
import PreviewDeploy.Proofs.StepFrames
import PreviewDeploy.Proofs.TransactionStep

/-!
# The cases of a step

What an action can be (`State.Deed`), and what a step of each kind of task can be.  A step of a
loop, of a caller or of a watch is one of a few operations, and the case says when it is which; a
step of a transaction is the step of the transaction at its site.
-/

namespace PreviewDeploy

/-- The time that an action takes. -/
def Action.elapsed : Action → Nat
  | .pass millis => millis
  | _ => 0

namespace Monitor

variable {hs : Healers} {n : Nat} {s s' : Site} {m m' : Monitor} {heals : Bool}

/-- What a step of the n-th watch keeps; it makes its own calls only, and it tells of an instance
exactly if it asks for healing. -/
structure Keeps (n : Nat) (heals : Bool) (s s' : Site) (m m' : Monitor) : Prop where
  now : s'.world.now = s.world.now
  project : s'.world.project = s.world.project
  events : ∃ told, s'.world.events = s.world.events ++ told ∧
    if heals then ∃ inst, told = [.selfHealTriggered inst] else told = []
  calls : ∃ made, s'.world.calls = s.world.calls ++ made ∧ ∀ c ∈ made, c.1 = .watch n
  session : s'.identity.session = s.identity.session
  inst : s'.identity.inst = s.identity.inst
  closed : m'.closed = m.closed

theorem Keeps.of_silent (hw : s'.world.now = s.world.now ∧ s'.world.project = s.world.project ∧
    s'.world.calls = s.world.calls ∧ s'.world.events = s.world.events)
    (hi : s'.identity = s.identity) (hm : m'.closed = m.closed) : Keeps n false s s' m m' :=
  ⟨hw.1, hw.2.1, ⟨[], by simp [hw.2.2.2]⟩, ⟨[], by simp [hw.2.2.1]⟩, by rw [hi], by rw [hi], hm⟩

theorem keeps_of_trigger {w : Watch} (h : trigger n w s m = (s', m', heals)) :
    Keeps n heals s s' m m' := by
  unfold trigger at h
  simp only at h
  split at h
  · simp only [Prod.mk.injEq] at h
    obtain ⟨rfl, rfl, rfl⟩ := h
    exact ⟨by simp, by simp, ⟨[.selfHealTriggered w.inst], by simp⟩, ⟨[], by simp⟩, rfl, rfl, rfl⟩
  · simp only [Prod.mk.injEq] at h
    obtain ⟨rfl, rfl, rfl⟩ := h
    exact Keeps.of_silent (by simp) rfl rfl

theorem keeps_of_answered {w : Watch} {next : Nat} {unhealthy : UInt32}
    {result : Except ControlPlane.Fault ControlPlane.InstanceStatus}
    (h : answered hs n w next unhealthy result s m = (s', m', heals)) :
    Keeps n heals s s' m m' := by
  unfold answered at h
  split at h
  · simp only [Prod.mk.injEq] at h
    obtain ⟨rfl, rfl, rfl⟩ := h
    exact Keeps.of_silent (by simp) rfl rfl
  · repeat' split at h
    case' isFalse.isFalse.isFalse.isFalse.isFalse => exact keeps_of_trigger h
    all_goals
      simp only [Prod.mk.injEq] at h
      obtain ⟨rfl, rfl, rfl⟩ := h
      exact Keeps.of_silent (by simp) rfl rfl

/-- What a step of a watch does: a watch that sleeps stops if it was cancelled, or asks; one that
asks goes by the answer, cancelled or not. -/
inductive StepsFrom (hs : Healers) (n : Nat) (w : Watch) (s : Site) (m : Monitor)
    (outcome : Outcome) : Prop
  | stops (due : Nat) (unhealthy : UInt32) (sleeping : w.stage = .sleeping due unhealthy)
      (cancelled : w.cancelled = true) (goes : (s, m.setStage n .stopped, false) = outcome)
  | ticks (due : Nat) (unhealthy : UInt32) (sleeping : w.stage = .sleeping due unhealthy)
      (going : w.cancelled = false) (goes : tick n w due unhealthy s m = outcome)
  | answered (next : Nat) (unhealthy : UInt32) (reply : Pending ControlPlane.InstanceStatus)
      (asking : w.stage = .asking next unhealthy reply)
      (goes : Monitor.answered hs n w next unhealthy reply.result s m = outcome)

theorem stepsFrom_of_step {outcome : Outcome} (h : m.step hs n s = some outcome) :
    ∃ w, m.watches[n]? = some w ∧ StepsFrom hs n w s m outcome := by
  unfold step at h
  cases hw : m.watches[n]? with
  | none => simp [hw] at h
  | some w =>
      refine ⟨w, rfl, ?_⟩
      simp only [hw] at h
      split at h
      · cases h
      · rename_i due unhealthy sleeping
        split at h
        · rename_i cancelled
          exact .stops due unhealthy sleeping cancelled (Option.some.inj h)
        · rename_i going
          simp only [Option.ite_none_right_eq_some, Option.some.injEq] at h
          exact .ticks due unhealthy sleeping (Bool.eq_false_iff.mpr going) h.2
      · rename_i next unhealthy reply asking
        simp only [Option.ite_none_right_eq_some, Option.some.injEq] at h
        exact .answered next unhealthy reply asking h.2

theorem keeps_of_step (h : m.step hs n s = some (s', m', heals)) : Keeps n heals s s' m m' := by
  obtain ⟨w, -, hsteps⟩ := stepsFrom_of_step h
  cases hsteps with
  | stops due unhealthy sleeping cancelled goes =>
      simp only [Prod.mk.injEq] at goes
      obtain ⟨rfl, rfl, rfl⟩ := goes
      exact Keeps.of_silent (by simp) rfl rfl
  | ticks due unhealthy sleeping going goes =>
      simp only [tick, Prod.mk.injEq] at goes
      obtain ⟨rfl, rfl, rfl⟩ := goes
      exact ⟨by simp [World.askStatus], by simp [World.askStatus],
        ⟨[], by simp [World.askStatus]⟩,
        ⟨[(.watch n, s.connect.1, .status w.inst)], by simp [World.askStatus]⟩,
        by simp, by simp, rfl⟩
  | answered next unhealthy reply asking goes => exact keeps_of_answered goes

end Monitor

namespace State

variable {s u : State} {n : Nat}

/-! ### Transactions -/

/-- The stage of the n-th transaction is another one, and one that has ended leaves the line. -/
def advanceSelf (n : Nat) (stage : TransactionStage) (o : Orchestrator) : Orchestrator :=
  { o.setTransaction n stage with line := if isFinished stage then o.line.erase n else o.line }

/-- A step of a transaction is its step at the site of the orchestrator. -/
theorem stepTransaction_cases (h : s.stepTransaction n = some u) :
    ∃ t site stage, s.self.transactions[n]? = some t ∧
      t.step s.self.blueprint n (s.self.line.head? = some n) s.toSite = some (site, stage) ∧
      u.self = advanceSelf n stage s.self ∧ u.identity = site.identity ∧
      u.world.now = site.world.now ∧ u.world.project = site.world.project ∧
      u.world.calls = site.world.calls ∧ u.world.events = site.world.events := by
  unfold stepTransaction at h
  cases ht : s.self.transactions[n]? with
  | none => simp [ht] at h
  | some t =>
      simp only [ht] at h
      cases hstep : t.step s.self.blueprint n (s.self.line.head? = some n) s.toSite with
      | none => simp [hstep] at h
      | some r =>
          obtain ⟨site, stage⟩ := r
          simp only [hstep, Option.some.injEq] at h
          subst h
          refine ⟨t, site, stage, rfl, hstep, ?_⟩
          unfold advanceSelf
          split <;> simp [Orchestrator.setTransaction]

/-! ### Loops -/

/-- What a step of the n-th loop can be. -/
inductive LoopStep (s : State) (n : Nat) (l : Loop) : State → Prop
  /-- A cancelled loop ends before its next attempt, or instead of waiting for it. -/
  | stops (cancelled : l.cancelled = true)
      (idle : (∃ attempt, l.stage = .ready attempt) ∨
        ∃ attempt due, l.stage = .backingOff attempt due) :
      LoopStep s n l (s.endLoop n none)
  | begins (attempt : UInt32) (ready : l.stage = .ready attempt) (going : l.cancelled = false) :
      LoopStep s n l (s.beginAttempt n l attempt)
  | succeeds (attempt : UInt32) (session : SessionId) (k deadline : Nat)
      (attempting : l.stage = .attempting attempt session k deadline) (e : Execution)
      (result : s.attemptResult? k deadline = some (.ok e)) :
      LoopStep s n l (s.succeed n l attempt e)
  | fails (attempt : UInt32) (session : SessionId) (k deadline : Nat)
      (attempting : l.stage = .attempting attempt session k deadline) (f : Failure)
      (result : s.attemptResult? k deadline = some (.error f)) :
      LoopStep s n l (s.failAttempt n l attempt session f)
  | retries (attempt : UInt32) (due : Nat) (waiting : l.stage = .backingOff attempt due)
      (going : l.cancelled = false) (late : due ≤ s.world.now) :
      LoopStep s n l (s.mapSelf (·.setLoop n (.ready (attempt + 1))))
  | completes (attempt : UInt32) (e : Execution)
      (reply : Pending ControlPlane.CommandsResponse)
      (settingUp : l.stage = .settingUp attempt e reply) (late : reply.due ≤ s.world.now) :
      LoopStep s n l ((s.mapWorld (reportSetup reply.result)).complete n l attempt e)

theorem stepLoop_cases (h : s.stepLoop n = some u) :
    ∃ l, s.self.loops[n]? = some l ∧ LoopStep s n l u := by
  unfold stepLoop at h
  cases hl : s.self.loops[n]? with
  | none => simp [hl] at h
  | some l =>
      refine ⟨l, rfl, ?_⟩
      simp only [hl] at h
      cases hs : l.stage with
      | ready attempt =>
          simp only [hs, Option.some.injEq] at h
          subst h
          cases hc : l.cancelled with
          | true =>
              rw [beginAttempt_of_cancelled s hc]
              exact .stops hc (.inl ⟨attempt, hs⟩)
          | false => exact .begins attempt hs hc
      | attempting attempt session k deadline =>
          simp only [hs] at h
          split at h
          · rename_i e he
            cases h
            exact .succeeds attempt session k deadline hs e he
          · rename_i f hf
            cases h
            exact .fails attempt session k deadline hs f hf
          · cases h
      | backingOff attempt due =>
          simp only [hs] at h
          split at h
          · rename_i hc
            cases h
            exact .stops hc (.inr ⟨attempt, due, hs⟩)
          · rename_i hc
            simp only [Option.ite_none_right_eq_some, Option.some.injEq] at h
            obtain ⟨late, rfl⟩ := h
            exact .retries attempt due hs (by simpa using hc) late
      | settingUp attempt e reply =>
          simp only [hs, Option.ite_none_right_eq_some, Option.some.injEq] at h
          obtain ⟨late, rfl⟩ := h
          exact .completes attempt e reply hs late
      | finished outcome => simp [hs] at h

/-! ### Callers -/

/-- What a step of the n-th caller can be. -/
inductive CallerStep (s : State) (n : Nat) (c : Caller) : State → Prop
  | refused (entering : c.stage = .entering) (closed : s.self.isClosed = true) :
      CallerStep s n c (s.answer n c none)
  | joins (entering : c.stage = .entering) (going : s.self.isClosed = false) (k : Nat)
      (taken : s.self.slot = some k) : CallerStep s n c ((s.count .coalesced).await n k false)
  | starts (entering : c.stage = .entering) (going : s.self.isClosed = false)
      (free : s.self.slot = none) :
      CallerStep s n c ((s.startLoop c.request).await n s.self.loops.length true)
  | returns (k since deadline : Nat) (starter : Bool)
      (waiting : c.stage = .waiting k since deadline starter) (l : Loop)
      (loop : s.self.loops[k]? = some l) (outcome : Option Outcome)
      (ended : l.stage = .finished outcome) :
      CallerStep s n c ((s.leaveLoop k starter).answer n c outcome)
  | expires (k since deadline : Nat) (starter : Bool)
      (waiting : c.stage = .waiting k since deadline starter) (l : Loop)
      (loop : s.self.loops[k]? = some l) (running : l.isFinished = false)
      (late : deadline ≤ s.world.now) :
      CallerStep s n c (((s.giveUp since l.deployment).leaveLoop k starter).answer n c none)

theorem stepCaller_cases (h : s.stepCaller n = some u) :
    ∃ c, s.self.callers[n]? = some c ∧ CallerStep s n c u := by
  unfold stepCaller at h
  cases hc : s.self.callers[n]? with
  | none => simp [hc] at h
  | some c =>
      refine ⟨c, rfl, ?_⟩
      simp only [hc] at h
      cases hs : c.stage with
      | entering =>
          simp only [hs, Option.some.injEq] at h
          subst h
          unfold enter
          cases hclosed : s.self.isClosed with
          | true => simpa using .refused hs hclosed
          | false =>
              cases hslot : s.self.slot with
              | none => simpa [hslot] using .starts hs hclosed hslot
              | some k => simpa [hslot] using .joins hs hclosed k hslot
      | waiting k since deadline starter =>
          simp only [hs] at h
          cases hl : s.self.loops[k]? with
          | none => simp [hl] at h
          | some l =>
              simp only [hl] at h
              split at h
              · rename_i outcome ended
                cases h
                exact .returns k since deadline starter hs l hl outcome ended
              · rename_i running
                simp only [Option.ite_none_right_eq_some, Option.some.injEq] at h
                obtain ⟨late, rfl⟩ := h
                refine .expires k since deadline starter hs l hl ?_ late
                unfold Loop.isFinished
                split
                · rename_i o ho
                  exact absurd ho (running o)
                · rfl
      | finished time outcome => simp [hs] at h
      | gone => simp [hs] at h

/-! ### Watches -/

/-- A step of a watch is its step in the monitor; if it asks for healing, a caller is added. -/
theorem stepWatch_cases (h : s.stepWatch n = some u) :
    ∃ site monitor heals, Monitor.Keeps n heals s.toSite site s.self.monitor monitor ∧
      u.self = (if heals then healedSelf { s.self with monitor } else { s.self with monitor }) ∧
      u.identity = site.identity ∧ u.world.now = site.world.now ∧
      u.world.project = site.world.project ∧ u.world.calls = site.world.calls ∧
      u.world.events = site.world.events ∧
      s.self.monitor.step s.self.healers n s.toSite = some (site, monitor, heals) := by
  unfold stepWatch at h
  cases hm : s.self.monitor.step s.self.healers n s.toSite with
  | none => simp [hm] at h
  | some r =>
      obtain ⟨site, monitor, heals⟩ := r
      simp only [hm, Option.some.injEq] at h
      subst h
      refine ⟨site, monitor, heals, Monitor.keeps_of_step hm, ?_⟩
      split <;> simp

/-! ### Actions -/

/-- What an action can be. -/
inductive Deed (s : State) : Action → State → Prop
  | transaction (n : Nat) {u : State} (h : s.stepTransaction n = some u) :
      Deed s (.step (.transaction n)) u
  | loop (n : Nat) {u : State} (h : s.stepLoop n = some u) : Deed s (.step (.loop n)) u
  | caller (n : Nat) {u : State} (h : s.stepCaller n = some u) : Deed s (.step (.caller n)) u
  | watch (n : Nat) {u : State} (h : s.stepWatch n = some u) : Deed s (.step (.watch n)) u
  | passes (millis : Nat) :
      Deed s (.pass millis) (s.mapWorld fun w => { w with now := w.now + millis })
  | calls (request : Request) (held : s.self.held = true) :
      Deed s (.call request) (s.addCaller request false)
  | abandons (n : Nat) : Deed s (.abandon n) (s.abandon n)
  | shuts : Deed s .shutdown s.shutdown
  | releases : Deed s .release s.release
  /-- Something is set that only later steps look at. -/
  | sets {a : Action} {u : State} (other : ∀ t, a ≠ .step t) (elapsed : a.elapsed = 0)
      (self : ∃ setup debugging, u.self = { s.self with setup, debugging })
      (identity : u.identity = s.identity) (now : u.world.now = s.world.now)
      (calls : u.world.calls = s.world.calls) (events : u.world.events = s.world.events) :
      Deed s a u

theorem deed_of_perform {a : Action} (h : s.perform a = some u) : Deed s a u := by
  cases a with
  | step t =>
      cases t with
      | transaction n => exact .transaction n h
      | loop n => exact .loop n h
      | caller n => exact .caller n h
      | watch n => exact .watch n h
      | direct => cases h
  | pass millis =>
      cases h
      exact .passes millis
  | call request =>
      simp only [perform, Option.ite_none_right_eq_some, Option.some.injEq] at h
      obtain ⟨held, rfl⟩ := h
      exact .calls request held
  | abandon n =>
      cases h
      exact .abandons n
  | shutdown =>
      cases h
      exact .shuts
  | release =>
      cases h
      exact .releases
  | queueSetup commands =>
      cases h
      exact .sets (by simp) rfl ⟨_, _, rfl⟩ rfl rfl rfl rfl
  | setDebugging debugging =>
      cases h
      exact .sets (by simp) rfl ⟨_, _, rfl⟩ rfl rfl rfl rfl
  | generate files =>
      cases h
      exact .sets (by simp) rfl ⟨_, _, rfl⟩ rfl rfl rfl rfl
  | prepare more =>
      cases h
      exact .sets (by simp) rfl ⟨_, _, rfl⟩ rfl rfl rfl rfl

end State

end PreviewDeploy
