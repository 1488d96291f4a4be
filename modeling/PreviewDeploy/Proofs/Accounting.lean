import PreviewDeploy.Proofs.Counters

/-!
# Accounts

At any time of a run the counters agree with what was told, with the calls that have entered and
with the stages of the loops (`State.accounted_of_trace`).  A call enters once: it is admitted, and
then starts a loop or joins one, or it is refused because the orchestrator is closed.  An attempt
that has begun has failed, has completed its deployment, or is still under way in its loop.
-/

namespace PreviewDeploy

/-- A loop at this stage is inside an attempt, or runs the setup commands after one that
succeeded. -/
def LoopStage.isUnderWay : LoopStage → Bool
  | .attempting .. | .settingUp .. => true
  | _ => false

/-- How many loops are inside an attempt or run the setup commands. -/
def Orchestrator.underWay (o : Orchestrator) : Nat := o.loops.countP (·.stage.isUnderWay)

namespace Moment

/-- The call that enters at a moment. -/
def entrant? (e : Moment) : Option Nat :=
  match e.action with
  | .step (.caller n) =>
    match e.state.self.callers[n]?.map Caller.stage with
    | some .entering => some n
    | _ => none
  | _ => none

/-- The call that enters at a moment and is not refused. -/
def admitted? (e : Moment) : Option Nat := if e.state.self.isClosed then none else e.entrant?

end Moment

/-- The calls that have entered, the last one first. -/
def entrants (h : List Moment) : List Nat := h.filterMap (·.entrant?)

/-- The calls that have entered and were not refused, the last one first. -/
def admitted (h : List Moment) : List Nat := h.filterMap (·.admitted?)

theorem Metrics.count_snapshot (m : Metrics) :
    m.snapshot.durations.count = UInt64.ofNat m.durations.length := by
  unfold snapshot
  simp only
  split
  · rename_i hempty
    rw [List.isEmpty_iff.mp hempty]
    rfl
  · simp [DurationSummary.ofMillis]

/-! ### Calls that enter -/

namespace Moment

variable {e : Moment} {n : Nat}

theorem entrant?_eq_some : e.entrant? = some n ↔ e.enters n = true := by
  obtain ⟨s, a⟩ := e
  unfold entrant? enters
  cases a with
  | step t =>
      cases t with
      | caller m =>
          simp only
          cases hstage : s.self.callers[m]?.map Caller.stage with
          | none => simp
          | some stage => cases stage <;> simp
      | _ => simp
  | _ => simp

theorem admitted?_of_other (other : ∀ n, e.action ≠ .step (.caller n)) : e.admitted? = none := by
  unfold admitted? entrant?
  split
  · rfl
  · split
    · exact absurd (by assumption) (other _)
    · rfl

end Moment

namespace State

variable {s t u : State} {a : Action} {h : List Moment} {n : Nat}

/-- A call goes on, or it stays as it is and does not enter. -/
theorem goes_or_stays (hp : s.perform a = some u) (n : Nat) :
    (∃ c, s.self.callers[n]? = some c ∧ Goes s n a c.stage (u.self.stageOf n) u.self.slot) ∨
      u.self.stageOf n = s.self.stageOf n ∧ Moment.enters n ⟨s, a⟩ = false := by
  cases calling_of_perform hp with
  | stays other callers =>
      refine .inr ⟨?_, (quiet_of_other other).1⟩
      rw [Orchestrator.stageOf, Orchestrator.stageOf, callers]
  | adds other request heal callers =>
      exact .inr ⟨Orchestrator.stageOf_of_add rfl callers, (quiet_of_other other).1⟩
  | goes m c here stage goes callers =>
      by_cases hn : n = m
      · subst hn
        refine .inl ⟨c, here, ?_⟩
        rw [Orchestrator.stageOf_of_set here callers]
        exact goes
      · refine .inr ⟨Orchestrator.stageOf_of_ne hn callers, ?_⟩
        generalize c.stage = old at goes
        generalize u.self.slot = slot at goes
        cases goes with
        | withdraws => rfl
        | leaves => rfl
        | _ => exact (quiet_of_ne hn).1

/-- What a call counts for, by the stage at which it is. -/
inductive Enrolled (h : List Moment) (n : Nat) (stage : CallerStage) : Prop
  /-- It has not entered; it may have been withdrawn. -/
  | outside (never : n ∉ entrants h) (stage : stage = .entering ∨ stage = .gone)
  | counted (mem : n ∈ admitted h) (stage : stage ≠ .entering)
  /-- It was answered with nothing when it entered. -/
  | refused (entered : n ∈ entrants h) (excluded : n ∉ admitted h) (time : Nat)
      (stage : stage = .finished time none)

theorem mem_entrants_cons : n ∈ entrants (⟨s, a⟩ :: h) ↔
    Moment.enters n ⟨s, a⟩ = true ∨ n ∈ entrants h := by
  rw [← Moment.entrant?_eq_some]
  simp [entrants, List.mem_filterMap]

theorem mem_admitted_cons : n ∈ admitted (⟨s, a⟩ :: h) ↔
    (Moment.enters n ⟨s, a⟩ = true ∧ s.self.isClosed = false) ∨ n ∈ admitted h := by
  rw [← Moment.entrant?_eq_some]
  simp [admitted, List.mem_filterMap, Moment.admitted?, and_comm]

theorem mem_entrants_of_admitted (hn : n ∈ admitted h) : n ∈ entrants h := by
  obtain ⟨e, he, hadmitted⟩ := List.mem_filterMap.mp hn
  unfold Moment.admitted? at hadmitted
  split at hadmitted
  · cases hadmitted
  · exact List.mem_filterMap.mpr ⟨e, he, hadmitted⟩

namespace Enrolled

theorem never (he : Enrolled h n .entering) : n ∉ entrants h := by
  cases he with
  | outside never => exact never
  | counted mem stage => exact absurd rfl stage
  | refused entered excluded time stage => cases stage

theorem of_stays {stage : CallerStage} (he : Enrolled h n stage)
    (stays : Moment.enters n ⟨s, a⟩ = false) : Enrolled (⟨s, a⟩ :: h) n stage := by
  cases he with
  | outside never stage => exact .outside (by simp [mem_entrants_cons, stays, never]) stage
  | counted mem stage => exact .counted (mem_admitted_cons.mpr (.inr mem)) stage
  | refused entered excluded time stage =>
      exact .refused (mem_entrants_cons.mpr (.inr entered))
        (by simp [mem_admitted_cons, stays, excluded]) time stage

/-- A call that waits was admitted, whatever becomes of it. -/
theorem of_waiting {k since deadline : Nat} {starter : Bool} {stage : CallerStage}
    (he : Enrolled h n (.waiting k since deadline starter)) (hstage : stage ≠ .entering) :
    Enrolled (⟨s, a⟩ :: h) n stage := by
  cases he with
  | outside never stage => simp at stage
  | counted mem => exact .counted (mem_admitted_cons.mpr (.inr mem)) hstage
  | refused entered excluded time stage => cases stage

theorem of_goes {c : Caller} {stage : CallerStage} {slot : Option Nat}
    (he : Enrolled h n c.stage) (hc : s.self.callers[n]? = some c)
    (goes : Goes s n a c.stage stage slot) : Enrolled (⟨s, a⟩ :: h) n stage := by
  generalize hold : c.stage = old at he goes
  cases goes with
  | refused closed =>
      have henters := enters_of_entering hc hold
      have hnot : n ∉ admitted h := mt mem_entrants_of_admitted he.never
      exact .refused (mem_entrants_cons.mpr (.inl henters))
        (by simp [mem_admitted_cons, closed, hnot]) s.world.now rfl
  | joins going =>
      exact .counted (mem_admitted_cons.mpr (.inl ⟨enters_of_entering hc hold, going⟩))
        (by simp [waitingFrom])
  | starts going =>
      exact .counted (mem_admitted_cons.mpr (.inl ⟨enters_of_entering hc hold, going⟩))
        (by simp [waitingFrom])
  | returns => exact he.of_waiting (by simp)
  | expires => exact he.of_waiting (by simp)
  | withdraws =>
      refine .outside ?_ (.inr rfl)
      rw [mem_entrants_cons]
      rintro (henters | hn)
      · cases henters
      · exact he.never hn
  | leaves => exact he.of_waiting (by simp)

end Enrolled

theorem enrolled_of_trace (hs : s.IsStart) (ht : Trace s h t) (n : Nat) :
    Enrolled h n (t.self.stageOf n) := by
  induction ht with
  | start =>
      obtain ⟨number, config, blueprint, setup, hself⟩ := hs.eq_withConfig
      refine .outside (by simp [entrants]) (.inl ?_)
      simp [hself, Orchestrator.stageOf, Orchestrator.withConfig]
  | @step h t u a _ hp ih =>
      rcases goes_or_stays hp n with ⟨c, hc, goes⟩ | ⟨hstage, stays⟩
      · rw [Orchestrator.stageOf_of_some hc] at ih
        exact ih.of_goes hc goes
      · rw [hstage]
        exact ih.of_stays stays

theorem lt_of_mem_entrants (hs : s.IsStart) (ht : Trace s h t) (hn : n ∈ entrants h) :
    n < t.self.callers.length := by
  refine Nat.lt_of_not_le fun hle => ?_
  have henrolled := enrolled_of_trace hs ht n
  have hnone : t.self.callers[n]? = none := List.getElem?_eq_none hle
  rw [Orchestrator.stageOf, hnone] at henrolled
  exact henrolled.never hn

theorem stageOf_of_enters {e : Moment} (he : e.enters n = true) :
    e.state.self.stageOf n = .entering := by
  unfold Moment.enters at he
  split at he
  · split at he
    · rename_i hstage
      obtain rfl := of_decide_eq_true he
      rw [Orchestrator.stageOf, hstage]
      rfl
    · cases he
  · cases he

theorem nodup_entrants (hs : s.IsStart) (ht : Trace s h t) : (entrants h).Nodup := by
  induction ht with
  | start => exact List.nodup_nil
  | @step h t u a ht hp ih =>
      cases hn : Moment.entrant? ⟨t, a⟩ with
      | none =>
          rw [entrants, List.filterMap_cons_none hn]
          exact ih
      | some n =>
          have hstage : t.self.stageOf n = .entering :=
            stageOf_of_enters (Moment.entrant?_eq_some.mp hn)
          have henrolled := enrolled_of_trace hs ht n
          rw [hstage] at henrolled
          rw [entrants, List.filterMap_cons_some hn]
          exact List.nodup_cons.mpr ⟨henrolled.never, ih⟩

section

variable {c : Caller} (hc : s.self.callers[n]? = some c)

include hc

/-- A call that enters is admitted if the orchestrator is not closed. -/
theorem admitted?_of_entering (entering : c.stage = .entering) :
    Moment.admitted? ⟨s, .step (.caller n)⟩ = if s.self.isClosed then none else some n := by
  rw [Moment.admitted?, Moment.entrant?_eq_some.mpr (enters_of_entering hc entering)]

/-- A call that waits is not admitted again, and joins no loop. -/
theorem admitted?_of_waiting {k since deadline : Nat} {starter : Bool}
    (waiting : c.stage = .waiting k since deadline starter) :
    Moment.admitted? ⟨s, .step (.caller n)⟩ = none ∧
      Moment.joins ⟨s, .step (.caller n)⟩ = false := by
  constructor
  · simp [Moment.admitted?, Moment.entrant?, hc, waiting]
  · simp [Moment.joins, enters_of_waiting hc waiting]

end

theorem countP_startEvents (request : Request) :
    (startEvents request s).countP Event.isStarted = 1 ∧
      (startEvents request s).countP Event.isAttemptFailed = 0 ∧
      (startEvents request s).countP Event.isCompleted = 0 := by
  unfold startEvents supersession
  split <;> exact ⟨rfl, rfl, rfl⟩

/-- A call that is admitted is told to start a loop, or counted as one that joins. -/
theorem countP_started_of_stepCaller (hp : s.stepCaller n = some u) :
    (Moment.told ⟨s, .step (.caller n)⟩).countP Event.isStarted +
        (Moment.joins ⟨s, .step (.caller n)⟩).toNat =
      (Moment.admitted? ⟨s, .step (.caller n)⟩).toList.length := by
  obtain ⟨c, hc, hs⟩ := stepCaller_cases hp
  cases hs with
  | refused entering closed =>
      have htold : Moment.told ⟨s, .step (.caller n)⟩ = [] := told_eq hp (by simp)
      rw [admitted?_of_entering hc entering, htold]
      simp [Moment.joins, closed]
  | joins entering going k taken =>
      have htold : Moment.told ⟨s, .step (.caller n)⟩ = [] := told_eq hp (by simp)
      rw [admitted?_of_entering hc entering, htold]
      simp [Moment.joins, enters_of_entering hc entering, going, taken]
  | starts entering going free =>
      have htold : Moment.told ⟨s, .step (.caller n)⟩ = startEvents c.request s :=
        told_eq hp (by simp)
      rw [admitted?_of_entering hc entering, htold, (countP_startEvents c.request).1]
      simp [Moment.joins, going, free]
  | returns k since deadline starter waiting =>
      have htold : Moment.told ⟨s, .step (.caller n)⟩ = [] := told_eq hp (by simp)
      obtain ⟨hadmitted, hjoins⟩ := admitted?_of_waiting hc waiting
      rw [htold, hadmitted, hjoins]
      rfl
  | expires k since deadline starter waiting l =>
      have htold : Moment.told ⟨s, .step (.caller n)⟩ = [expiry since l.deployment s] :=
        told_eq hp (by simp)
      obtain ⟨hadmitted, hjoins⟩ := admitted?_of_waiting hc waiting
      rw [htold, hadmitted, hjoins]
      rfl

theorem countP_started_of_other (other : ∀ n, a ≠ .step (.caller n)) (hp : s.perform a = some u) :
    (Moment.told ⟨s, a⟩).countP Event.isStarted = 0 := by
  obtain ⟨told, htells⟩ := told_of_perform hp
  have hstarted : told.filterMap Event.started? = [] := by
    have hloops := htells.started
    rw [deployments_of_perform hp fun n hn => absurd hn (other n)] at hloops
    exact List.self_eq_append_right.mp hloops
  rw [told_eq hp htells.events]
  refine List.countP_eq_zero.mpr fun e he => ?_
  have hnone := List.filterMap_eq_nil_iff.mp hstarted e he
  cases e with
  | started => cases hnone
  | _ => exact Bool.false_ne_true

/-- What is told to start and what is counted as joining are the calls that are admitted. -/
theorem countP_started (hp : s.perform a = some u) :
    (Moment.told ⟨s, a⟩).countP Event.isStarted + (Moment.joins ⟨s, a⟩).toNat =
      (Moment.admitted? ⟨s, a⟩).toList.length := by
  by_cases hcaller : ∃ n, a = .step (.caller n)
  · obtain ⟨n, rfl⟩ := hcaller
    exact countP_started_of_stepCaller hp
  · have other (n : Nat) : a ≠ .step (.caller n) := fun hn => hcaller ⟨n, hn⟩
    rw [countP_started_of_other other hp, Moment.joins_of_other other,
      Moment.admitted?_of_other other]
    rfl

/-! ### Attempts that are under way -/

theorem countP_modify {α : Type} (p : α → Bool) (f : α → α) {xs : List α} {x : α}
    (hx : xs[n]? = some x) :
    (xs.modify n f).countP p + (p x).toNat = xs.countP p + (p (f x)).toNat := by
  induction xs generalizing n with
  | nil => simp at hx
  | cons y xs ih =>
      cases n with
      | zero =>
          obtain rfl : y = x := by simpa using hx
          simp only [List.modify_zero_cons, List.countP_cons]
          cases p y <;> cases p (f y) <;> simp
      | succ n =>
          have := ih (n := n) (by simpa using hx)
          simp only [List.modify_succ_cons, List.countP_cons]
          omega

theorem underWay_of_stages {o o' : Orchestrator}
    (h : o'.loops.map (·.stage) = o.loops.map (·.stage)) : o'.underWay = o.underWay := by
  have hstages (o : Orchestrator) :
      o.underWay = (o.loops.map (·.stage)).countP LoopStage.isUnderWay := by
    rw [List.countP_map]
    rfl
  rw [hstages, hstages, h]

theorem map_stage_loopsAfter (o : Orchestrator) :
    (loopsAfter o).map (·.stage) = o.loops.map (·.stage) := by
  unfold loopsAfter
  split
  · exact map_modify_of_eq (by simp) _ _
  · rfl

section

variable {l : Loop} {stage : LoopStage} (here : s.self.loops[n]? = some l)

include here

theorem underWay_of_setLoop (loops : u.self.loops = (s.self.setLoop n stage).loops) :
    u.self.underWay + l.stage.isUnderWay.toNat = s.self.underWay + stage.isUnderWay.toNat := by
  rw [Orchestrator.underWay, loops]
  exact countP_modify (·.stage.isUnderWay) (fun l => { l with stage }) here

theorem not_begins_of_underWay (under : l.stage.isUnderWay = true) :
    Moment.begins ⟨s, .step (.loop n)⟩ = false := by
  cases hs : l.stage with
  | ready attempt =>
      rw [hs] at under
      cases under
  | _ => simp [Moment.begins, here, hs]

/-- A loop that goes on and tells nothing has an attempt under way if it had one before or begins
one now. -/
theorem underWay_of_moves (moves : Moves s.world.now l stage) :
    (Moment.begins ⟨s, .step (.loop n)⟩).toNat + l.stage.isUnderWay.toNat =
      stage.isUnderWay.toNat := by
  cases moves with
  | begins attempt session k deadline ready going =>
      simp [Moment.begins, here, ready, going, LoopStage.isUnderWay]
  | setsUp attempt session k deadline attempting x reply =>
      simp [Moment.begins, here, attempting, LoopStage.isUnderWay]
  | retries attempt due waiting going late =>
      simp [Moment.begins, here, waiting, LoopStage.isUnderWay]
  | stops cancelled idle =>
      obtain ⟨attempt, hs⟩ | ⟨attempt, due, hs⟩ := idle
      · simp [Moment.begins, here, hs, cancelled, LoopStage.isUnderWay]
      · simp [Moment.begins, here, hs, LoopStage.isUnderWay]

end

/-- An attempt that begins is under way from then on, and one that is so no more is told to have
failed or to have completed its deployment. -/
theorem underWay_of_perform (hp : s.perform a = some u) :
    (Moment.begins ⟨s, a⟩).toNat + s.self.underWay =
      (Moment.told ⟨s, a⟩).countP Event.isAttemptFailed +
        (Moment.told ⟨s, a⟩).countP Event.isCompleted + u.self.underWay := by
  have htelling := Telling.of_told hp
  generalize Moment.told ⟨s, a⟩ = told at htelling
  cases htelling with
  | @fails n l attempt session k deadline f here attempting loops =>
      have hunder : l.stage.isUnderWay = true := by rw [attempting]; rfl
      have hcount := underWay_of_setLoop here loops
      have htold : (failureEvents l attempt session f s).countP Event.isAttemptFailed = 1 ∧
          (failureEvents l attempt session f s).countP Event.isCompleted = 0 := by
        unfold failureEvents
        split <;> exact ⟨rfl, rfl⟩
      rw [hunder, Bool.toNat_true] at hcount
      rw [not_begins_of_underWay here hunder, htold.1, htold.2, Bool.toNat_false]
      simp only [LoopStage.isUnderWay, Bool.toNat_false] at hcount
      omega
  | @completes n l attempt x here trying loops =>
      have hunder : l.stage.isUnderWay = true := by
        obtain ⟨session, k, deadline, hs⟩ | ⟨x, reply, hs⟩ := trying
        · rw [hs]; rfl
        · rw [hs]; rfl
      have hcount := underWay_of_setLoop here loops
      have htold : [completion l attempt x s.world.now].countP Event.isAttemptFailed = 0 ∧
          [completion l attempt x s.world.now].countP Event.isCompleted = 1 := ⟨rfl, rfl⟩
      rw [hunder, Bool.toNat_true] at hcount
      rw [not_begins_of_underWay here hunder, htold.1, htold.2, Bool.toNat_false]
      simp only [LoopStage.isUnderWay, Bool.toNat_false] at hcount
      omega
  | @moves n l stage here moves loops =>
      have hcount := underWay_of_setLoop here loops
      have hmoves := underWay_of_moves here moves
      simp only [List.countP_nil]
      omega
  | @starts n c going loops =>
      have hafter : Orchestrator.underWay { s.self with loops := loopsAfter s.self } =
          s.self.underWay := underWay_of_stages (map_stage_loopsAfter s.self)
      have hcount : u.self.underWay = s.self.underWay := by
        rw [← hafter, Orchestrator.underWay, loops, List.countP_append]
        rfl
      obtain ⟨-, hfailed, hcompleted⟩ := countP_startEvents (s := s) c.request
      have hbegins : Moment.begins ⟨s, .step (.caller n)⟩ = false := rfl
      rw [hbegins, hfailed, hcompleted, hcount, Bool.toNat_false]
  | aside other aside loops =>
      have none_of {p : Event → Bool} (hp : ∀ e, e.isAside = true → p e = false) :
          told.countP p = 0 :=
        List.countP_eq_zero.mpr fun e he => by simp [hp e (aside e he)]
      have hfailed : told.countP Event.isAttemptFailed = 0 :=
        none_of fun e he => by cases e <;> first | rfl | cases he
      have hcompleted : told.countP Event.isCompleted = 0 :=
        none_of fun e he => by cases e <;> first | rfl | cases he
      have hcount : u.self.underWay = s.self.underWay := by
        refine underWay_of_stages ?_
        rcases loops with loops | loops
        · rw [loops]
        · rw [loops, List.map_map]
          rfl
      rw [Moment.begins_of_other other, hfailed, hcompleted, hcount, Bool.toNat_false]

/-! ### Whole runs -/

/-- The counters of an orchestrator that counts by itself. -/
structure Accounted (s : State) (h : List Moment) (t : State) : Prop where
  events : t.world.events = s.world.events ++ told h
  started : t.world.metrics.started = (told h).countP Event.isStarted
  completed : t.world.metrics.completed = (told h).countP Event.isCompleted
  timedOut : t.world.metrics.timedOut = (told h).countP Event.isTimedOut
  attemptFailures : t.world.metrics.attemptFailures = (told h).countP Event.isAttemptFailed
  rotations : t.world.metrics.rotations = (told h).countP Event.isRotation
  selfHeals : t.world.metrics.selfHeals = (told h).countP Event.isSelfHeal
  /-- Every call that was admitted has started a loop or joined one. -/
  calls : t.world.metrics.started + t.world.metrics.coalesced = (admitted h).length
  once : (entrants h).Nodup
  known : ∀ n ∈ entrants h, n < t.self.callers.length
  enrolled : ∀ (n : Nat) (c : Caller), t.self.callers[n]? = some c → Enrolled h n c.stage
  attempts : t.world.metrics.attempts =
    t.world.metrics.attemptFailures + t.world.metrics.completed + t.self.underWay
  durations : t.world.metrics.durations.length = t.world.metrics.completed
  histogram : t.world.metrics.snapshot.durations.count = t.world.metrics.snapshot.completed

theorem started_of_trace (ht : Trace s h t) :
    (told h).countP Event.isStarted + h.countP (·.joins) = (admitted h).length := by
  induction ht with
  | start => rfl
  | @step h t u a _ hp ih =>
      have hstep := countP_started hp
      have hadmitted : (admitted (⟨t, a⟩ :: h)).length =
          (Moment.admitted? ⟨t, a⟩).toList.length + (admitted h).length := by
        unfold admitted
        cases hn : Moment.admitted? ⟨t, a⟩ with
        | none => simp [List.filterMap_cons_none hn]
        | some n => simp [List.filterMap_cons_some hn, Nat.add_comm]
      rw [told, List.countP_append, hadmitted, countP_cons_toNat]
      omega

/-- The attempts that have begun in a run have failed, have completed their deployments or are
under way. -/
theorem underWay_of_trace (hs : s.IsStart) (ht : Trace s h t) :
    h.countP (·.begins) = (told h).countP Event.isAttemptFailed +
      (told h).countP Event.isCompleted + t.self.underWay := by
  induction ht with
  | start => simp [told, Orchestrator.underWay, hs.loops_eq_nil]
  | @step h t u a _ hp ih =>
      have hstep := underWay_of_perform hp
      rw [told, List.countP_append, List.countP_append, countP_cons_toNat]
      omega

/-- The counters of an orchestrator agree with what was told, with the calls that have entered and
with the stages of its loops. -/
theorem accounted_of_trace (hs : s.IsStart) (own : s.world.metrics = {}) (ht : Trace s h t) :
    Accounted s h t := by
  have htally := tally_of_trace ht
  have hattempts := attempts_of_trace ht
  have hcoalesced := coalesced_of_joins ht
  have hstarted := started_of_trace ht
  have hunder := underWay_of_trace hs ht
  rw [own] at htally hattempts hcoalesced
  have started := htally.started.trans (Nat.zero_add _)
  have completed := htally.completed.trans (Nat.zero_add _)
  have failures := htally.attemptFailures.trans (Nat.zero_add _)
  have durations : t.world.metrics.durations.length = t.world.metrics.completed :=
    (htally.durations.trans (Nat.zero_add _)).trans completed.symm
  refine ⟨events_of_trace ht, started, completed, htally.timedOut.trans (Nat.zero_add _), failures,
    htally.rotations.trans (Nat.zero_add _), htally.selfHeals.trans (Nat.zero_add _), ?_,
    nodup_entrants hs ht, fun n => lt_of_mem_entrants hs ht, fun n c hc => ?_, ?_, durations, ?_⟩
  · rw [started, hcoalesced, ← hstarted, Nat.zero_add]
  · exact Orchestrator.stageOf_of_some hc ▸ enrolled_of_trace hs ht n
  · rw [hattempts, hunder, failures, completed, Nat.zero_add]
  · rw [Metrics.count_snapshot, durations]
    rfl

/-- A loop is inside its first attempt when the orchestrator is shut down; a call that has joined
waits for it, and one that comes later is refused. -/
def interrupted : List Action :=
  [.call .allFiles, .call .allFiles, .step (.caller 0), .step (.caller 1), .step (.loop 0),
    .shutdown, .call .allFiles, .step (.caller 2)]

theorem accounted_of_trace_of_interrupted :
    ∃ t, bare.IsStart ∧ bare.world.metrics = {} ∧ Trace bare (bare.history interrupted) t ∧
      entrants (bare.history interrupted) = [2, 1, 0] ∧
      admitted (bare.history interrupted) = [1, 0] ∧ t.self.underWay = 1 ∧
      (t.world.metrics.started, t.world.metrics.coalesced, t.world.metrics.attempts) = (1, 1, 1) ∧
      Accounted bare (bare.history interrupted) t := by
  have hrun : (bare.follow interrupted).map (fun t => (t.self.underWay,
      t.world.metrics.started, t.world.metrics.coalesced, t.world.metrics.attempts)) =
        some (1, 1, 1, 1) := by
    decide +kernel
  obtain ⟨t, ht, hv⟩ := trace_of_map hrun
  obtain ⟨hunder, hmetrics⟩ := Prod.mk.inj hv
  exact ⟨t, isStart_bare, rfl, ht, by decide +kernel, by decide +kernel, hunder, hmetrics,
    accounted_of_trace isStart_bare rfl ht⟩

end State

end PreviewDeploy
