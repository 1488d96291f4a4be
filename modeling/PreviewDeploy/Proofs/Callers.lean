import PreviewDeploy.Proofs.ActiveLoop

/-!
# What happens to the callers

An action takes one caller on, adds one or leaves them as they are (`State.Calling`).  A caller
holds the slot from the time when it starts a loop until it stops waiting, so the slot is taken
exactly while the caller that has started its loop waits (`Orchestrator.Attended`).
-/

namespace PreviewDeploy

namespace State

variable {s u : State} {a : Action}

/-- How a caller goes on, from one stage to the next, and the slot after it. -/
inductive Goes (s : State) (n : Nat) : Action → CallerStage → CallerStage → Option Nat → Prop
  | refused (closed : s.self.isClosed = true) :
      Goes s n (.step (.caller n)) .entering (.finished s.world.now none) s.self.slot
  | joins (going : s.self.isClosed = false) (k : Nat) (taken : s.self.slot = some k) :
      Goes s n (.step (.caller n)) .entering (waitingFrom s.world.now k false s.self) s.self.slot
  | starts (going : s.self.isClosed = false) (free : s.self.slot = none) :
      Goes s n (.step (.caller n)) .entering
        (waitingFrom s.world.now s.self.loops.length true s.self) (some s.self.loops.length)
  | returns (k since deadline : Nat) (starter : Bool) (l : Loop)
      (loop : s.self.loops[k]? = some l) (outcome : Option Outcome)
      (ended : l.stage = .finished outcome) :
      Goes s n (.step (.caller n)) (.waiting k since deadline starter)
        (.finished s.world.now outcome) (slotAfter k starter s.self.slot)
  | expires (k since deadline : Nat) (starter : Bool) (l : Loop)
      (loop : s.self.loops[k]? = some l) (running : l.isFinished = false)
      (late : deadline ≤ s.world.now) :
      Goes s n (.step (.caller n)) (.waiting k since deadline starter)
        (.finished s.world.now none) (slotAfter k starter s.self.slot)
  | withdraws : Goes s n (.abandon n) .entering .gone s.self.slot
  | leaves (k since deadline : Nat) (starter : Bool) :
      Goes s n (.abandon n) (.waiting k since deadline starter) .gone
        (slotAfter k starter s.self.slot)

/-- The callers fare in one of three ways. -/
inductive Calling (s u : State) : Action → Prop
  | goes {a : Action} (n : Nat) (c : Caller) (here : s.self.callers[n]? = some c)
      (stage : CallerStage) (goes : Goes s n a c.stage stage u.self.slot)
      (callers : u.self.callers = (s.self.setCaller n stage).callers) : Calling s u a
  | adds {a : Action} (other : ∀ n, a ≠ .step (.caller n)) (request : Request) (heal : Bool)
      (callers : u.self.callers = s.self.callers ++ [({ request, heal } : Caller)])
      (slot : u.self.slot = s.self.slot) : Calling s u a
  | stays {a : Action} (other : ∀ n, a ≠ .step (.caller n))
      (callers : u.self.callers = s.self.callers) (slot : u.self.slot = s.self.slot) :
      Calling s u a

/-! ### The steps that a stage allows -/

section

variable {n : Nat} {c : Caller} (hc : s.self.callers[n]? = some c)

include hc

theorem stepCaller_of_closed (entering : c.stage = .entering) (closed : s.self.isClosed = true) :
    s.stepCaller n = some (s.answer n c none) := by
  simp [stepCaller, hc, entering, enter, closed]

theorem stepCaller_of_taken (entering : c.stage = .entering) (going : s.self.isClosed = false)
    {k : Nat} (taken : s.self.slot = some k) :
    s.stepCaller n = some ((s.count .coalesced).await n k false) := by
  simp [stepCaller, hc, entering, enter, going, taken]

theorem stepCaller_of_free (entering : c.stage = .entering) (going : s.self.isClosed = false)
    (free : s.self.slot = none) :
    s.stepCaller n = some ((s.startLoop c.request).await n s.self.loops.length true) := by
  simp [stepCaller, hc, entering, enter, going, free]

/-- A caller that waits can go on as soon as its loop has ended or its time has come. -/
theorem stepCaller_isSome_of_waiting {k since deadline : Nat} {starter : Bool} {l : Loop}
    (waiting : c.stage = .waiting k since deadline starter) (loop : s.self.loops[k]? = some l) :
    (∃ u, s.stepCaller n = some u) ↔ l.isFinished = true ∨ deadline ≤ s.world.now := by
  unfold stepCaller Loop.isFinished
  simp only [hc, waiting, loop]
  cases l.stage with
  | finished outcome => simp
  | _ =>
      by_cases hdue : deadline ≤ s.world.now
      · simp [hdue]
      · simp [hdue]

end

theorem calling_of_stepCaller {n : Nat} (h : s.stepCaller n = some u) :
    Calling s u (.step (.caller n)) := by
  obtain ⟨c, hc, hs⟩ := stepCaller_cases h
  cases hs with
  | refused entering closed =>
      refine .goes n c hc (.finished s.world.now none) ?_ (by simp)
      rw [entering]
      simpa [Orchestrator.setCaller] using Goes.refused (n := n) closed
  | joins entering going k taken =>
      refine .goes n c hc (waitingFrom s.world.now k false s.self) ?_ (by simp)
      rw [entering]
      simpa [Orchestrator.setCaller] using Goes.joins (n := n) going k taken
  | starts entering going free =>
      refine .goes n c hc (waitingFrom s.world.now s.self.loops.length true s.self) ?_
        (by simp [Orchestrator.setCaller, waitingFrom])
      rw [entering]
      simpa [Orchestrator.setCaller] using Goes.starts (n := n) going free
  | returns k since deadline starter waiting l loop outcome ended =>
      refine .goes n c hc (.finished s.world.now outcome) ?_ (by simp [Orchestrator.setCaller])
      rw [waiting]
      simpa [Orchestrator.setCaller] using
        Goes.returns (n := n) k since deadline starter l loop outcome ended
  | expires k since deadline starter waiting l loop running late =>
      refine .goes n c hc (.finished s.world.now none) ?_ (by simp [Orchestrator.setCaller])
      rw [waiting]
      simpa [Orchestrator.setCaller] using
        Goes.expires (n := n) k since deadline starter l loop running late

theorem calling_of_stepLoop {n : Nat} (h : s.stepLoop n = some u) :
    Calling s u (.step (.loop n)) := by
  obtain ⟨l, -, hs⟩ := stepLoop_cases h
  refine .stays (by simp) ?_ ?_ <;> cases hs with
  | stops => simp [Orchestrator.setLoop]
  | begins attempt ready going =>
      simp [beginAttempt_frame s going, attemptSelf, Orchestrator.setLoop]
  | succeeds attempt session k deadline attempting e =>
      by_cases hset : s.self.setup = []
      · simp [succeed_of_nil s hset n l attempt e, Orchestrator.setLoop]
      · obtain ⟨⟨reply, hself⟩, -⟩ := succeed_of_ne_nil s hset n l attempt e
        simp [hself, Orchestrator.setLoop]
  | fails => simp [Orchestrator.setLoop]
  | retries => simp [Orchestrator.setLoop]
  | completes => simp [Orchestrator.setLoop]

theorem calling_of_stepWatch {n : Nat} (h : s.stepWatch n = some u) :
    Calling s u (.step (.watch n)) := by
  obtain ⟨site, monitor, heals, -, hself, -⟩ := stepWatch_cases h
  cases heals with
  | false => exact .stays (by simp) (by simp [hself]) (by simp [hself])
  | true =>
      simp only [if_true, healedSelf] at hself
      split at hself
      · exact .adds (by simp) .allFiles true (by simp [hself]) (by simp [hself])
      · exact .stays (by simp) (by simp [hself]) (by simp [hself])

theorem calling_of_abandon {n : Nat} (hself : u.self = abandonSelf n s.self) :
    Calling s u (.abandon n) := by
  unfold abandonSelf at hself
  cases hc : s.self.callers[n]? with
  | none => exact .stays (by simp) (by simp [hself, hc]) (by simp [hself, hc])
  | some c =>
      simp only [hc, Option.map_some, Option.getD_some] at hself
      cases hs : c.stage with
      | entering =>
          rw [hs] at hself
          refine .goes n c hc .gone ?_ (by simp [hself])
          rw [hs]
          simpa [hself, Orchestrator.setCaller] using Goes.withdraws
      | waiting k since deadline starter =>
          rw [hs] at hself
          refine .goes n c hc .gone ?_ (by simp [hself])
          rw [hs]
          simpa [hself] using Goes.leaves k since deadline starter
      | finished time outcome =>
          rw [hs] at hself
          exact .stays (by simp) (by simp [hself]) (by simp [hself])
      | gone =>
          rw [hs] at hself
          exact .stays (by simp) (by simp [hself]) (by simp [hself])

theorem calling_of_perform (h : s.perform a = some u) : Calling s u a := by
  cases deed_of_perform h with
  | transaction n hstep =>
      obtain ⟨t, site, stage, -, -, hself, -⟩ := stepTransaction_cases hstep
      exact .stays (by simp) (by simp [hself, advanceSelf, Orchestrator.setTransaction])
        (by simp [hself, advanceSelf, Orchestrator.setTransaction])
  | loop n hstep => exact calling_of_stepLoop hstep
  | caller n hstep => exact calling_of_stepCaller hstep
  | watch n hstep => exact calling_of_stepWatch hstep
  | passes => exact .stays (by simp) rfl rfl
  | calls request => exact .adds (by simp) request false (by simp) (by simp)
  | abandons n => exact calling_of_abandon (abandon_frame s n).1
  | shuts => exact .stays (by simp) (by simp) (by simp)
  | releases => exact .stays (by simp) (by simp) (by simp)
  | sets other _ self =>
      obtain ⟨setup, debugging, hself⟩ := self
      exact .stays (fun n => other (.caller n)) (by rw [hself]) (by rw [hself])

end State

/-! ### The slot -/

/-- The loop whose slot a caller holds: the one that it has started and waits for. -/
def CallerStage.holds? : CallerStage → Option Nat
  | .waiting k _ _ true => some k
  | _ => none

namespace Orchestrator

open State

/-- The stage of the n-th call; a call that was not made yet is to enter. -/
def stageOf (o : Orchestrator) (n : Nat) : CallerStage :=
  (o.callers[n]?.map (·.stage)).getD .entering

def holds? (o : Orchestrator) (n : Nat) : Option Nat := (o.stageOf n).holds?

/-- The slot is taken by the caller that holds it. -/
structure Attended (o : Orchestrator) : Prop where
  waits : ∀ n k since deadline starter, o.stageOf n = .waiting k since deadline starter →
    k < o.loops.length
  slot : ∀ k, o.slot = some k ↔ ∃ n, o.holds? n = some k
  one : ∀ n n' k k', o.holds? n = some k → o.holds? n' = some k' → n = n'

variable {o o' : Orchestrator} {n m : Nat} {c : Caller} {stage : CallerStage}

theorem stageOf_of_some (h : o.callers[n]? = some c) : o.stageOf n = c.stage := by
  simp [stageOf, h]

theorem stageOf_of_set (h : o.callers[n]? = some c)
    (callers : o'.callers = (o.setCaller n stage).callers) : o'.stageOf n = stage := by
  simp [stageOf, callers, setCaller, h]

theorem stageOf_of_ne (h : m ≠ n) (callers : o'.callers = (o.setCaller n stage).callers) :
    o'.stageOf m = o.stageOf m := by
  simp [stageOf, callers, setCaller, h.symm]

theorem stageOf_of_add {c : Caller} (hc : c.stage = .entering)
    (callers : o'.callers = o.callers ++ [c]) : o'.stageOf m = o.stageOf m := by
  unfold stageOf
  rw [callers]
  rcases Nat.lt_trichotomy m o.callers.length with hlt | rfl | hgt
  · rw [List.getElem?_append_left hlt]
  · simp [hc]
  · rw [List.getElem?_eq_none (by simp; omega), List.getElem?_eq_none (by omega)]

theorem exists_of_holds {k : Nat} (h : o.holds? n = some k) :
    ∃ since deadline, o.stageOf n = .waiting k since deadline true := by
  unfold holds? CallerStage.holds? at h
  split at h
  · rename_i k' since deadline hstage
    rw [Option.some.injEq] at h
    exact ⟨since, deadline, h ▸ hstage⟩
  · cases h

namespace Attended

/-- Nobody takes the slot or frees it. -/
theorem of_stageOf (ha : o.Attended) (h : ∀ m, o'.holds? m = o.holds? m) (slot : o'.slot = o.slot)
    (waits : ∀ n k since deadline starter, o'.stageOf n = .waiting k since deadline starter →
      k < o'.loops.length) : o'.Attended := by
  refine ⟨waits, fun k => ?_, fun n n' k k' hn hn' => ?_⟩
  · rw [slot, ha.slot]
    simp only [h]
  · rw [h] at hn hn'
    exact ha.one n n' k k' hn hn'

/-! One caller goes on to another stage. -/

variable (ha : o.Attended) (here : o.callers[n]? = some c)
  (callers : o'.callers = (o.setCaller n stage).callers)
  (len : o.loops.length ≤ o'.loops.length)
  (reach : ∀ k since deadline starter, stage = .waiting k since deadline starter →
    k < o'.loops.length)

include ha here callers len reach

theorem waits_of_set (m k since deadline : Nat) (starter : Bool)
    (hm : o'.stageOf m = .waiting k since deadline starter) : k < o'.loops.length := by
  by_cases hmn : m = n
  · rw [hmn, stageOf_of_set here callers] at hm
    exact reach k since deadline starter hm
  · rw [stageOf_of_ne hmn callers] at hm
    exact Nat.lt_of_lt_of_le (ha.waits m k since deadline starter hm) len

/-- The caller did not hold the slot, and does not now. -/
theorem of_set (h : c.stage.holds? = none) (h' : stage.holds? = none) (slot : o'.slot = o.slot) :
    o'.Attended := by
  refine ha.of_stageOf (fun m => ?_) slot (ha.waits_of_set here callers len reach)
  by_cases hm : m = n
  · rw [hm, holds?, holds?, stageOf_of_some here, stageOf_of_set here callers, h, h']
  · rw [holds?, holds?, stageOf_of_ne hm callers]

/-- The caller takes the slot, which was free. -/
theorem of_takes {k : Nat} (free : o.slot = none) (h' : stage.holds? = some k)
    (slot : o'.slot = some k) : o'.Attended := by
  have hn : o'.holds? n = some k := by rw [holds?, stageOf_of_set here callers, h']
  have eq_of (m j : Nat) (hm : o'.holds? m = some j) : m = n := by
    by_cases hne : m = n
    · exact hne
    · rw [holds?, stageOf_of_ne hne callers] at hm
      have := (ha.slot j).mpr ⟨m, hm⟩
      rw [free] at this
      cases this
  refine ⟨ha.waits_of_set here callers len reach, fun j => ?_, fun m m' j j' hm hm' => ?_⟩
  · rw [slot, Option.some.injEq]
    constructor
    · rintro rfl
      exact ⟨n, hn⟩
    · rintro ⟨m, hm⟩
      rw [eq_of m j hm, hn, Option.some.injEq] at hm
      exact hm
  · rw [eq_of m j hm, eq_of m' j' hm']

/-- The caller stops waiting; if it holds the slot it frees it. -/
theorem of_leaves {k since deadline : Nat} {starter : Bool}
    (waiting : c.stage = .waiting k since deadline starter) (h' : stage.holds? = none)
    (slot : o'.slot = slotAfter k starter o.slot) : o'.Attended := by
  cases starter with
  | false =>
      refine ha.of_set here callers len reach (by rw [waiting]; rfl) h' ?_
      simpa [slotAfter] using slot
  | true =>
      have hk : o.holds? n = some k := by
        rw [holds?, stageOf_of_some here, waiting]
        rfl
      have free : o'.slot = none := by simpa [slotAfter, (ha.slot k).mpr ⟨n, hk⟩] using slot
      have none_of (m : Nat) : o'.holds? m = none := by
        by_cases hm : m = n
        · rw [hm, holds?, stageOf_of_set here callers, h']
        · rw [holds?, stageOf_of_ne hm callers]
          cases hm' : (o.stageOf m).holds? with
          | none => rfl
          | some j => exact absurd (ha.one m n j k hm' hk) hm
      refine ⟨ha.waits_of_set here callers len reach, fun j => ?_, fun m m' j j' hm _ => ?_⟩
      · simp [free, none_of]
      · rw [none_of] at hm
        cases hm

end Attended

end Orchestrator

namespace State

variable {s t u : State} {a : Action} {h : List Moment} {n m : Nat}

open Orchestrator in
theorem attended_of_perform (ha : s.self.Attended) (hp : s.perform a = some u) :
    u.self.Attended := by
  have hlen := loops_length_le_of_perform hp
  have same (hstage : ∀ m, u.self.stageOf m = s.self.stageOf m)
      (slot : u.self.slot = s.self.slot) : u.self.Attended := by
    refine ha.of_stageOf (fun m => by rw [holds?, holds?, hstage]) slot ?_
    intro m k since deadline starter hm
    exact Nat.lt_of_lt_of_le (ha.waits m k since deadline starter (hstage m ▸ hm)) hlen
  cases calling_of_perform hp with
  | stays other callers slot => exact same (fun m => by rw [stageOf, stageOf, callers]) slot
  | adds other request heal callers slot => exact same (fun m => stageOf_of_add rfl callers) slot
  | goes n c here stage goes callers =>
      generalize hc : c.stage = old at goes
      generalize hslot : u.self.slot = slot at goes
      cases goes with
      | refused => exact ha.of_set here callers hlen (by simp) (by rw [hc]; rfl) rfl hslot
      | joins going k taken =>
          refine ha.of_set here callers hlen ?_ (by rw [hc]; rfl) rfl hslot
          rintro k' since deadline starter ⟨⟩
          obtain ⟨m, hm⟩ := (ha.slot k).mp taken
          obtain ⟨since', deadline', hstage⟩ := exists_of_holds hm
          exact Nat.lt_of_lt_of_le (ha.waits m k since' deadline' true hstage) hlen
      | starts going free =>
          refine ha.of_takes here callers hlen ?_ free rfl hslot
          rintro k since deadline starter ⟨⟩
          obtain rfl := Option.some.inj ((stepCaller_of_free here hc going free).symm.trans hp)
          simp [setCaller, length_loopsAfter]
      | returns k since deadline starter =>
          exact ha.of_leaves here callers hlen (by simp) hc rfl hslot
      | expires k since deadline starter =>
          exact ha.of_leaves here callers hlen (by simp) hc rfl hslot
      | withdraws => exact ha.of_set here callers hlen (by simp) (by rw [hc]; rfl) rfl hslot
      | leaves k since deadline starter =>
          exact ha.of_leaves here callers hlen (by simp) hc rfl hslot

theorem attended_of_trace (hs : s.IsStart) (ht : Trace s h t) : t.self.Attended := by
  induction ht with
  | start =>
      obtain ⟨number, config, blueprint, setup, hself⟩ := hs.eq_withConfig
      rw [hself]
      refine ⟨?_, ?_, ?_⟩ <;>
        simp [Orchestrator.withConfig, Orchestrator.stageOf, Orchestrator.holds?,
          CallerStage.holds?]
  | step _ hp ih => exact attended_of_perform ih hp

theorem last_of_slot (hs : s.IsStart) (ht : Trace s h t) {k : Nat} (hslot : t.self.slot = some k) :
    k + 1 = t.self.loops.length := by
  induction ht generalizing k with
  | start =>
      obtain ⟨number, config, blueprint, setup, hself⟩ := hs.eq_withConfig
      simp [hself, Orchestrator.withConfig] at hslot
  | @step h t u a ht hp ih =>
      -- No loop is started while the slot is taken.
      have kept (hslot : t.self.slot = some k) : k + 1 = u.self.loops.length := by
        rw [ih hslot]
        cases looping_of_perform hp with
        | moves n l stage here step loops => simp [loops, Orchestrator.setLoop]
        | starts n c here entering going free =>
            rw [free] at hslot
            cases hslot
        | closes loops => simp [loops]
        | stays loops => rw [loops]
      have left {j : Nat} {starter : Bool} (hj : slotAfter j starter t.self.slot = some k) :
          k + 1 = u.self.loops.length := by
        unfold slotAfter at hj
        split at hj
        · cases hj
        · exact kept hj
      cases calling_of_perform hp with
      | stays other callers slot => exact kept (slot.symm.trans hslot)
      | adds other request heal callers slot => exact kept (slot.symm.trans hslot)
      | goes n c here stage goes callers =>
          generalize hstage : c.stage = old at goes
          rw [hslot] at goes
          generalize hk : some k = slot at goes
          cases goes with
          | refused => exact kept hk.symm
          | joins => exact kept hk.symm
          | starts going free =>
              obtain rfl := Option.some.inj hk
              rw [perform, step, stepCaller_of_free here hstage going free] at hp
              obtain rfl := Option.some.inj hp
              simp [Orchestrator.setCaller, length_loopsAfter]
          | returns => exact left hk.symm
          | expires => exact left hk.symm
          | withdraws => exact kept hk.symm
          | leaves => exact left hk.symm

end State

end PreviewDeploy
