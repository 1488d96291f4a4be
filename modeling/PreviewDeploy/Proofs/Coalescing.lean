import PreviewDeploy.Proofs.Callers
import PreviewDeploy.Proofs.Events

/-!
# Calls share deployments

A call that enters joins the loop in the slot, or starts one if there is none.  It is answered
with what the loop comes to, or gives up when it has waited long enough.  What has become of a
call follows from the history (`Fate`): the moment at which it entered says for which loop it
waits and until when.
-/

namespace PreviewDeploy

namespace Moment

/-- The n-th call enters at a moment. -/
def enters (n : Nat) (e : Moment) : Bool :=
  match e.action with
  | .step (.caller m) =>
    match e.state.self.callers[m]?.map Caller.stage with
    | some .entering => m = n
    | _ => false
  | _ => false

/-- The loop for which a call waits that enters at a moment. -/
def target (w : Moment) : Nat := w.state.self.slot.getD w.state.self.loops.length

/-- The time until which a call waits that enters at a moment. -/
def due (w : Moment) : Nat := w.state.world.now + w.state.self.config.masterTimeout.ceilMillis

/-- Time does not pass beyond that at which a caller gives up. -/
def IsPunctual (e : Moment) : Prop :=
  ∀ (n : Nat) (c : Caller) (due : Nat), e.state.self.callers[n]? = some c → c.due? = some due →
    e.state.world.now ≤ due → e.state.world.now + e.action.elapsed ≤ due

end Moment

/-- What was told because a call gave up. -/
def expiries (h : List Moment) (n : Nat) : List Event :=
  h.filterMap fun e => (e.expired?.filter fun x => x.1 = n).map (·.2)

/-- What has become of the n-th call, by the stage at which it is. -/
inductive Fate (h : List Moment) (t : State) (n : Nat) : CallerStage → Prop
  | entering (never : h.filter (·.enters n) = []) (silent : expiries h n = []) :
      Fate h t n .entering
  | refused (w : Moment) (once : h.filter (·.enters n) = [w])
      (closed : w.state.self.isClosed = true) (silent : expiries h n = []) :
      Fate h t n (.finished w.state.world.now none)
  /-- It waits for the loop in the slot, or for the one that it has started. -/
  | waits (w : Moment) (once : h.filter (·.enters n) = [w])
      (going : w.state.self.isClosed = false) (silent : expiries h n = [])
      (prompt : (∀ e ∈ h, e.IsPunctual) → t.world.now ≤ w.due) :
      Fate h t n (.waiting w.target w.state.world.now w.due w.state.self.slot.isNone)
  /-- It was answered with what its loop has come to. -/
  | returns (w : Moment) (once : h.filter (·.enters n) = [w])
      (going : w.state.self.isClosed = false) (silent : expiries h n = []) (l : Loop)
      (loop : t.self.loops[w.target]? = some l) (outcome : Option Outcome)
      (ended : l.stage = .finished outcome) (time : Nat)
      (prompt : (∀ e ∈ h, e.IsPunctual) → time ≤ w.due) : Fate h t n (.finished time outcome)
  /-- It has waited long enough, and gave up; its loop has not ended before. -/
  | expires (w : Moment) (once : h.filter (·.enters n) = [w])
      (going : w.state.self.isClosed = false) (l : Loop)
      (loop : t.self.loops[w.target]? = some l) (time : Nat)
      (told : expiries h n = [.timedOut l.deployment (State.timeoutText t.self.config)
        (UInt64.ofNat (time - w.state.world.now))])
      (late : w.due ≤ time) (past : time ≤ t.world.now)
      (running : ∀ e ∈ h, ∀ l, e.state.self.loops[w.target]? = some l → l.isFinished = true →
        w.due ≤ e.state.world.now)
      (prompt : (∀ e ∈ h, e.IsPunctual) → time = w.due) : Fate h t n (.finished time none)
  | gone (silent : expiries h n = []) : Fate h t n .gone

namespace State

open Orchestrator

variable {s t u : State} {a : Action} {h : List Moment} {n k : Nat}

/-! ### Loops that have ended -/

theorem isFinished_of_mem {l : Loop} {e : Moment} (ht : Trace s h t) (he : e ∈ h)
    (hl : e.state.self.loops[k]? = some l) (hended : l.isFinished = true) :
    ∃ l', t.self.loops[k]? = some l' ∧ l'.isFinished = true := by
  obtain ⟨outcome, hend⟩ := Loop.isFinished_iff.mp hended
  obtain ⟨later, earlier, rfl, -, u, hp, hlater⟩ := ht.split_of_mem he
  obtain ⟨x, hx, -, -, hkept⟩ := loop_of_perform hl hp
  obtain ⟨l', hl', hend'⟩ := finished_of_trace hx (hkept outcome hend) hlater
  exact ⟨l', hl', Loop.isFinished_iff.mpr ⟨outcome, hend'⟩⟩

/-! ### The moment of a step -/

/-- Nothing happens to the n-th call at a moment. -/
def Quiet (n : Nat) (e : Moment) : Prop :=
  e.enters n = false ∧ (e.expired?.filter fun x => x.1 = n) = none

theorem quiet_of_other (other : ∀ n, a ≠ .step (.caller n)) : Quiet n ⟨s, a⟩ := by
  unfold Quiet Moment.enters Moment.expired?
  cases a with
  | step task =>
      cases task with
      | caller m => exact absurd rfl (other m)
      | _ => exact ⟨rfl, rfl⟩
  | _ => exact ⟨rfl, rfl⟩

theorem quiet_of_ne {m : Nat} (hne : n ≠ m) : Quiet n ⟨s, .step (.caller m)⟩ := by
  constructor
  · unfold Moment.enters
    simp only
    split
    · simpa using Ne.symm hne
    · rfl
  · unfold Moment.expired?
    simp only
    repeat' split
    all_goals simp [Ne.symm hne]

theorem Quiet.filter_eq {e : Moment} (hq : Quiet n e) :
    (e :: h).filter (·.enters n) = h.filter (·.enters n) := by
  simp [hq.1]

theorem Quiet.expiries_eq {e : Moment} (hq : Quiet n e) : expiries (e :: h) n = expiries h n := by
  simp [expiries, hq.2]

theorem fate_of_quiet {stage : CallerStage} (hf : Fate h s n stage) (hq : Quiet n ⟨s, a⟩)
    (hstage : s.self.stageOf n = stage) (hp : s.perform a = some u) :
    Fate (⟨s, a⟩ :: h) u n stage := by
  obtain ⟨hconfig, hnow⟩ := clock_of_perform hp
  cases hf with
  | entering never silent =>
      exact .entering (hq.filter_eq.trans never) (hq.expiries_eq.trans silent)
  | refused w once closed silent =>
      exact .refused w (hq.filter_eq.trans once) closed (hq.expiries_eq.trans silent)
  | waits w once going silent prompt =>
      refine .waits w (hq.filter_eq.trans once) going (hq.expiries_eq.trans silent)
        fun hpunctual => ?_
      have hdue := prompt fun e he => hpunctual e (List.mem_cons_of_mem _ he)
      cases hc : s.self.callers[n]? with
      | none => simp [Orchestrator.stageOf, hc] at hstage
      | some c =>
          rw [stageOf_of_some hc] at hstage
          rw [hnow]
          exact hpunctual ⟨s, a⟩ (List.mem_cons_self ..) n c w.due hc
            (by simp [Caller.due?, hstage]) hdue
  | returns w once going silent l loop outcome ended time prompt =>
      obtain ⟨l', hl', -, -, hended⟩ := loop_of_perform loop hp
      exact .returns w (hq.filter_eq.trans once) going (hq.expiries_eq.trans silent) l' hl' outcome
        (hended outcome ended) time fun hpunctual =>
          prompt fun e he => hpunctual e (List.mem_cons_of_mem _ he)
  | expires w once going l loop time told late past running prompt =>
      obtain ⟨l', hl', hdeployment, -⟩ := loop_of_perform loop hp
      refine .expires w (hq.filter_eq.trans once) going l' hl' time ?_ late ?_ ?_ ?_
      · rw [hq.expiries_eq, told, hdeployment, hconfig]
      · omega
      · intro e he x hx hended
        rcases List.mem_cons.mp he with rfl | he
        · exact Nat.le_trans late past
        · exact running e he x hx hended
      · exact fun hpunctual => prompt fun e he => hpunctual e (List.mem_cons_of_mem _ he)
  | gone silent => exact .gone (hq.expiries_eq.trans silent)

theorem enters_of_entering {c : Caller} (hc : s.self.callers[n]? = some c)
    (hs : c.stage = .entering) : Moment.enters n ⟨s, .step (.caller n)⟩ = true := by
  simp [Moment.enters, hc, hs]

theorem enters_of_waiting {c : Caller} {since deadline : Nat} {starter : Bool}
    (hc : s.self.callers[n]? = some c) (hs : c.stage = .waiting k since deadline starter) :
    Moment.enters n ⟨s, .step (.caller n)⟩ = false := by
  simp [Moment.enters, hc, hs]

theorem expired?_of_entering {c : Caller} (hc : s.self.callers[n]? = some c)
    (hs : c.stage = .entering) : Moment.expired? ⟨s, .step (.caller n)⟩ = none := by
  simp [Moment.expired?, hc, hs]

theorem expired?_of_waiting {c : Caller} {since deadline : Nat} {starter : Bool} {l : Loop}
    (hc : s.self.callers[n]? = some c) (hs : c.stage = .waiting k since deadline starter)
    (hl : s.self.loops[k]? = some l) :
    Moment.expired? ⟨s, .step (.caller n)⟩ =
      if l.isFinished then none else some (n, expiry since l.deployment s) := by
  simp [Moment.expired?, hc, hs, hl]

/-- A call that enters and is not refused waits from then on. -/
theorem fate_of_admitted {c : Caller} (hc : s.self.callers[n]? = some c)
    (hs : c.stage = .entering) (going : s.self.isClosed = false) (hf : Fate h s n .entering)
    (hp : s.perform (.step (.caller n)) = some u) :
    Fate (⟨s, .step (.caller n)⟩ :: h) u n
      (.waiting (Moment.target ⟨s, .step (.caller n)⟩) s.world.now
        (Moment.due ⟨s, .step (.caller n)⟩) s.self.slot.isNone) := by
  obtain ⟨-, hnow⟩ := clock_of_perform hp
  cases hf with
  | entering never silent =>
      refine .waits ⟨s, .step (.caller n)⟩ ?_ going ?_ fun _ => ?_
      · rw [List.filter_cons_of_pos (enters_of_entering hc hs), never]
      · simpa [expiries, expired?_of_entering hc hs] using silent
      · rw [hnow]
        simp [Moment.due, Action.elapsed]

/-- A call that waits and whose loop has ended is answered with what the loop has come to. -/
theorem fate_of_returned {c : Caller} {since deadline : Nat} {starter : Bool} {l : Loop}
    {outcome : Option Outcome} (hc : s.self.callers[n]? = some c)
    (hs : c.stage = .waiting k since deadline starter) (hl : s.self.loops[k]? = some l)
    (ended : l.stage = .finished outcome) (hf : Fate h s n (.waiting k since deadline starter))
    (hp : s.perform (.step (.caller n)) = some u) :
    Fate (⟨s, .step (.caller n)⟩ :: h) u n (.finished s.world.now outcome) := by
  cases hf with
  | waits w once going silent prompt =>
      obtain ⟨l', hl', -, -, hended⟩ := loop_of_perform hl hp
      have hfinished : l.isFinished = true := by simp [Loop.isFinished, ended]
      refine .returns w ?_ going ?_ l' hl' outcome (hended outcome ended) s.world.now ?_
      · rw [List.filter_cons_of_neg (by simp [enters_of_waiting hc hs]), once]
      · simpa [expiries, expired?_of_waiting hc hs hl, hfinished] using silent
      · exact fun hpunctual => prompt fun e he => hpunctual e (List.mem_cons_of_mem _ he)

/-- A call that has waited long enough, and whose loop has not ended, gives up. -/
theorem fate_of_expired {c : Caller} {since deadline : Nat} {starter : Bool} {l : Loop}
    (ht : Trace t h s) (hc : s.self.callers[n]? = some c)
    (hs : c.stage = .waiting k since deadline starter) (hl : s.self.loops[k]? = some l)
    (running : l.isFinished = false) (late : deadline ≤ s.world.now)
    (hf : Fate h s n (.waiting k since deadline starter))
    (hp : s.perform (.step (.caller n)) = some u) :
    Fate (⟨s, .step (.caller n)⟩ :: h) u n (.finished s.world.now none) := by
  obtain ⟨hconfig, hnow⟩ := clock_of_perform hp
  cases hf with
  | waits w once going silent prompt =>
      obtain ⟨l', hl', hdeployment, -⟩ := loop_of_perform hl hp
      refine .expires w ?_ going l' hl' s.world.now ?_ late ?_ ?_ ?_
      · rw [List.filter_cons_of_neg (by simp [enters_of_waiting hc hs]), once]
      · rw [hdeployment, hconfig]
        simpa [expiries, expired?_of_waiting hc hs hl, running, expiry] using silent
      · omega
      · intro e he x hx hended
        rcases List.mem_cons.mp he with rfl | he
        · exact late
        · obtain ⟨l', hl', hfinished⟩ := isFinished_of_mem ht he hx hended
          obtain rfl := Option.some.inj (hl.symm.trans hl')
          rw [running] at hfinished
          cases hfinished
      · intro hpunctual
        exact Nat.le_antisymm (prompt fun e he => hpunctual e (List.mem_cons_of_mem _ he)) late

theorem fate_of_goes {c : Caller} {stage : CallerStage} {slot : Option Nat} (ht : Trace t h s)
    (hc : s.self.callers[n]? = some c) (hf : Fate h s n c.stage)
    (goes : Goes s n a c.stage stage slot) (hp : s.perform a = some u) :
    Fate (⟨s, a⟩ :: h) u n stage := by
  generalize hs : c.stage = old at hf goes
  cases goes with
  | refused closed =>
      cases hf with
      | entering never silent =>
          refine .refused ⟨s, .step (.caller n)⟩ ?_ closed ?_
          · rw [List.filter_cons_of_pos (enters_of_entering hc hs), never]
          · simpa [expiries, expired?_of_entering hc hs] using silent
  | joins going k taken =>
      simpa [Moment.target, Moment.due, waitingFrom, taken] using fate_of_admitted hc hs going hf hp
  | starts going free =>
      simpa [Moment.target, Moment.due, waitingFrom, free] using fate_of_admitted hc hs going hf hp
  | returns k since deadline starter l loop outcome ended =>
      exact fate_of_returned hc hs loop ended hf hp
  | expires k since deadline starter l loop running late =>
      exact fate_of_expired ht hc hs loop running late hf hp
  | withdraws =>
      cases hf with
      | entering never silent => exact .gone ((quiet_of_other (by simp)).expiries_eq.trans silent)
  | leaves k since deadline starter =>
      cases hf with
      | waits w once going silent =>
          exact .gone ((quiet_of_other (by simp)).expiries_eq.trans silent)

theorem fate_of_trace (hs : s.IsStart) (ht : Trace s h t) (n : Nat) :
    Fate h t n (t.self.stageOf n) := by
  induction ht with
  | start =>
      obtain ⟨number, config, blueprint, setup, hself⟩ := hs.eq_withConfig
      have hstage : s.self.stageOf n = .entering := by
        simp [hself, Orchestrator.stageOf, Orchestrator.withConfig]
      rw [hstage]
      exact .entering rfl rfl
  | @step h t u a ht hp ih =>
      cases calling_of_perform hp with
      | stays other callers =>
          have hstage : u.self.stageOf n = t.self.stageOf n := by
            rw [stageOf, stageOf, callers]
          rw [hstage]
          exact fate_of_quiet ih (quiet_of_other other) rfl hp
      | adds other request heal callers =>
          rw [stageOf_of_add rfl callers]
          exact fate_of_quiet ih (quiet_of_other other) rfl hp
      | goes m c here stage goes callers =>
          by_cases hn : n = m
          · subst hn
            rw [stageOf_of_some here] at ih
            rw [stageOf_of_set here callers]
            exact fate_of_goes ht here ih goes hp
          · rw [stageOf_of_ne hn callers]
            refine fate_of_quiet ih ?_ rfl hp
            generalize c.stage = old at goes
            generalize u.self.slot = slot at goes
            cases goes with
            | withdraws => exact quiet_of_other (by simp)
            | leaves => exact quiet_of_other (by simp)
            | _ => exact quiet_of_ne hn

/-! ### Entering and being answered -/

/-- What a call that enters comes to: it is refused, joins the loop in the slot, or starts a loop
if the slot is free. -/
inductive Entered (s : State) (n : Nat) (c : Caller) (u : State) : Prop
  | refused (closed : s.self.isClosed = true)
      (stage : u.self.stageOf n = .finished s.world.now none)
      (loops : u.self.loops.length = s.self.loops.length)
  | joined (going : s.self.isClosed = false) (k : Nat) (taken : s.self.slot = some k)
      (stage : u.self.stageOf n = waitingFrom s.world.now k false s.self)
      (slot : u.self.slot = some k) (loops : u.self.loops = s.self.loops)
  | started (going : s.self.isClosed = false) (free : s.self.slot = none) (l : Loop)
      (stage : u.self.stageOf n = waitingFrom s.world.now s.self.loops.length true s.self)
      (slot : u.self.slot = some s.self.loops.length)
      (loops : u.self.loops.length = s.self.loops.length + 1)
      (last : u.self.loops[s.self.loops.length]? = some l) (request : l.request = c.request)
      (stage' : l.stage = .ready 1)

theorem entered_of_entering {c : Caller} (hc : s.self.callers[n]? = some c)
    (hs : c.stage = .entering) : ∃ u, s.perform (.step (.caller n)) = some u ∧ Entered s n c u := by
  have stage {u : State} {stage : CallerStage}
      (callers : u.self.callers = (s.self.setCaller n stage).callers) :
      u.self.stageOf n = stage := stageOf_of_set hc callers
  cases hclosed : s.self.isClosed with
  | true =>
      exact ⟨_, stepCaller_of_closed hc hs hclosed,
        .refused hclosed (stage (by simp)) (by simp [setCaller])⟩
  | false =>
      cases hslot : s.self.slot with
      | some k =>
          exact ⟨_, stepCaller_of_taken hc hs hclosed hslot, .joined hclosed k hslot
            (stage (by simp [waitingFrom])) (by simp [setCaller, hslot]) (by simp [setCaller])⟩
      | none =>
          exact ⟨_, stepCaller_of_free hc hs hclosed hslot, .started hclosed hslot
            (newLoop c.request s) (stage (by simp [setCaller, waitingFrom])) (by simp [setCaller])
            (by simp [setCaller, length_loopsAfter])
            (by simp [setCaller, ← length_loopsAfter s.self]) rfl rfl⟩

/-- A caller that waits and goes on is answered: with what its loop has come to if it has ended,
and with nothing otherwise. -/
theorem answered_of_waiting {c : Caller} {since deadline : Nat} {starter : Bool} {l : Loop}
    (hc : s.self.callers[n]? = some c) (hs : c.stage = .waiting k since deadline starter)
    (hl : s.self.loops[k]? = some l) (hp : s.perform (.step (.caller n)) = some u) :
    (∃ outcome, l.stage = .finished outcome ∧
        u.self.stageOf n = .finished s.world.now outcome) ∨
      l.isFinished = false ∧ u.self.stageOf n = .finished s.world.now none := by
  cases calling_of_perform hp with
  | stays other => exact absurd rfl (other n)
  | adds other => exact absurd rfl (other n)
  | goes m c' here stage goes callers =>
      have hstage := stageOf_of_set here callers
      generalize hold : c'.stage = old at goes
      generalize u.self.slot = slot at goes
      cases goes with
      | returns k' since' deadline' starter' l' loop outcome ended =>
          obtain rfl := Option.some.inj (hc.symm.trans here)
          obtain ⟨rfl, -, -, -⟩ := CallerStage.waiting.inj (hs.symm.trans hold)
          obtain rfl := Option.some.inj (hl.symm.trans loop)
          exact .inl ⟨outcome, ended, hstage⟩
      | expires k' since' deadline' starter' l' loop running =>
          obtain rfl := Option.some.inj (hc.symm.trans here)
          obtain ⟨rfl, -, -, -⟩ := CallerStage.waiting.inj (hs.symm.trans hold)
          obtain rfl := Option.some.inj (hl.symm.trans loop)
          exact .inr ⟨running, hstage⟩
      | refused =>
          obtain rfl := Option.some.inj (hc.symm.trans here)
          cases hs.symm.trans hold
      | joins =>
          obtain rfl := Option.some.inj (hc.symm.trans here)
          cases hs.symm.trans hold
      | starts =>
          obtain rfl := Option.some.inj (hc.symm.trans here)
          cases hs.symm.trans hold

/-- How calls share deployments. -/
structure Coalesced (s : State) (h : List Moment) (t : State) : Prop where
  /-- A call can enter at once, and joins or starts a loop unless it is refused. -/
  enters : ∀ (n : Nat) (c : Caller), t.self.callers[n]? = some c → c.stage = .entering →
    ∃ u, t.perform (.step (.caller n)) = some u ∧ Entered t n c u
  /-- Every deployment that was started has one loop, and every call that gave up one event. -/
  told : ∃ told, t.world.events = s.world.events ++ told ∧
    told.filterMap Event.started? = t.self.loops.map (·.deployment) ∧
    told.filter Event.isTimedOut = (h.reverse.filterMap Moment.expired?).map (·.2)
  /-- What has become of each call. -/
  fates : ∀ (n : Nat) (c : Caller), t.self.callers[n]? = some c → Fate h t n c.stage
  /-- A call can be answered as soon as its loop has ended or its time has come. -/
  answers : ∀ (n : Nat) (c : Caller) (k since deadline : Nat) (starter : Bool),
    t.self.callers[n]? = some c → c.stage = .waiting k since deadline starter →
      ∃ l, t.self.loops[k]? = some l ∧
        ((∃ u, t.perform (.step (.caller n)) = some u) ↔
          l.isFinished = true ∨ deadline ≤ t.world.now) ∧
        ∀ u, t.perform (.step (.caller n)) = some u →
          (∃ outcome, l.stage = .finished outcome ∧
              u.self.stageOf n = .finished t.world.now outcome) ∨
            l.isFinished = false ∧ u.self.stageOf n = .finished t.world.now none
  /-- Two calls that share a loop and have an outcome have the same one. -/
  agree : ∀ w ∈ h, ∀ w' ∈ h, w.target = w'.target → ∀ (n n' : Nat) (c c' : Caller)
    (time time' : Nat) (o o' : Outcome), w.enters n = true → w'.enters n' = true →
      t.self.callers[n]? = some c → t.self.callers[n']? = some c' →
      c.stage = .finished time (some o) → c'.stage = .finished time' (some o') → o = o'
  /-- The slot is taken exactly while the caller waits that has started its loop. -/
  slot : ∀ k, t.self.slot = some k ↔ ∃ (n : Nat) (c : Caller) (since deadline : Nat),
    t.self.callers[n]? = some c ∧ c.stage = .waiting k since deadline true
  /-- A loop that has not ended and is not cancelled is the active one. -/
  active : ∀ (n : Nat) (l : Loop), t.self.loops[n]? = some l → l.isFinished = false →
    l.cancelled = false → t.self.active = some n

theorem outcome_of_fate {time : Nat} {o : Outcome} {w : Moment}
    (hf : Fate h t n (.finished time (some o))) (hw : w ∈ h) (henters : w.enters n = true) :
    ∃ l, t.self.loops[w.target]? = some l ∧ l.stage = .finished (some o) := by
  cases hf with
  | returns w' once going silent l loop outcome ended =>
      have hmem : w ∈ h.filter (·.enters n) := List.mem_filter.mpr ⟨hw, henters⟩
      rw [once, List.mem_singleton] at hmem
      exact ⟨l, hmem ▸ loop, ended⟩

/-- In every run calls share deployments as `Coalesced` says. -/
theorem coalesced_of_trace (hs : s.IsStart) (ht : Trace s h t) : Coalesced s h t := by
  have fates (n : Nat) (c : Caller) (hc : t.self.callers[n]? = some c) : Fate h t n c.stage :=
    stageOf_of_some hc ▸ fate_of_trace hs ht n
  have hattended := attended_of_trace hs ht
  refine ⟨fun n c hc hentering => entered_of_entering hc hentering, told_of_trace hs ht, fates, ?_,
    ?_, fun k => ?_, (oneActive_of_trace hs ht).current⟩
  · intro n c k since deadline starter hc hwaiting
    have hk := hattended.waits n k since deadline starter (by rw [stageOf_of_some hc, hwaiting])
    refine ⟨t.self.loops[k], List.getElem?_eq_getElem hk, ?_, fun u hp => ?_⟩
    · exact stepCaller_isSome_of_waiting hc hwaiting (List.getElem?_eq_getElem hk)
    · exact answered_of_waiting hc hwaiting (List.getElem?_eq_getElem hk) hp
  · intro w hw w' hw' htarget n n' c c' time time' o o' henters henters' hc hc' hs hs'
    obtain ⟨l, hl, hended⟩ := outcome_of_fate (hs ▸ fates n c hc) hw henters
    obtain ⟨l', hl', hended'⟩ := outcome_of_fate (hs' ▸ fates n' c' hc') hw' henters'
    rw [← htarget] at hl'
    obtain rfl := Option.some.inj (hl.symm.trans hl')
    exact Option.some.inj (LoopStage.finished.inj (hended.symm.trans hended'))
  · rw [hattended.slot k]
    constructor
    · rintro ⟨n, hn⟩
      obtain ⟨since, deadline, hstage⟩ := exists_of_holds hn
      cases hc : t.self.callers[n]? with
      | none => simp [Orchestrator.stageOf, hc] at hstage
      | some c => exact ⟨n, c, since, deadline, hc, stageOf_of_some hc ▸ hstage⟩
    · rintro ⟨n, c, since, deadline, hc, hstage⟩
      exact ⟨n, by rw [holds?, stageOf_of_some hc, hstage]; rfl⟩

/-- Two calls share a deployment, and a third one comes after it. -/
def sharing : List Action :=
  [.call .allFiles, .call .allFiles, .step (.caller 1), .step (.caller 0), .step (.loop 0),
    .step (.transaction 0), .pass 5, .step (.transaction 0), .step (.loop 0), .step (.caller 0),
    .step (.caller 1), .call .allFiles, .step (.caller 2)]

theorem coalesced_of_sharing :
    ∃ t, bare.IsStart ∧ Trace bare (bare.history sharing) t ∧
      t.self.callers.map (·.answer?.map fun x => (x.1, x.2.isSome)) =
        [some (5, true), some (5, true), none] ∧
      t.self.slot = some 1 ∧ Coalesced bare (bare.history sharing) t := by
  have hrun : (bare.follow sharing).map (fun t =>
      (t.self.callers.map (·.answer?.map fun x => (x.1, x.2.isSome)), t.self.slot)) =
        some ([some (5, true), some (5, true), none], some 1) := by
    decide +kernel
  obtain ⟨t, ht, hv⟩ := trace_of_map hrun
  obtain ⟨hanswers, hslot⟩ := Prod.mk.inj hv
  exact ⟨t, isStart_bare, ht, hanswers, hslot, coalesced_of_trace isStart_bare ht⟩

end State

end PreviewDeploy
