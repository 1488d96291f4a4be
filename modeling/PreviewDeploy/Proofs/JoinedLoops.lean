import PreviewDeploy.Proofs.SelfHeal

/-!
# Loops that calls join

A call that enters joins the loop in the slot, and the slot is freed by the call that has started
the loop, when that call goes on or goes away.  The loop may have ended before: its end and the end
of its starter are two steps, and between them any other call may enter.  Such a call is answered at
once, with what the loop had come to before the call was made (`State.arrival_of_entering`).
-/

namespace PreviewDeploy

/-- The moment ends the `k`-th loop with an outcome. -/
def Moment.Ends (e : Moment) (k : Nat) (outcome : Option Outcome) : Prop :=
  e.action = .step (.loop k) ∧ ∃ u l, e.state.perform e.action = some u ∧
    u.self.loops[k]? = some l ∧ l.stage = .finished outcome

/-- The moment is a step of the `m`-th call, or lets its caller go away. -/
def Moment.IsOf (e : Moment) (m : Nat) : Prop :=
  e.action = .step (.caller m) ∨ e.action = .abandon m

namespace State

open Orchestrator

variable {s t u : State} {a : Action} {h later earlier : List Moment} {e : Moment}
  {k m n : Nat} {outcome : Option Outcome}

/-! ### The call that holds the slot -/

theorem Goes.isOf {old stage : CallerStage} {slot : Option Nat} (hg : Goes s n a old stage slot) :
    Moment.IsOf ⟨s, a⟩ n := by
  cases hg with
  | withdraws => exact .inr rfl
  | leaves => exact .inr rfl
  | _ => exact .inl rfl

/-- A call that holds the slot has held it before, or has just started the loop. -/
theorem holds_of_perform (hp : s.perform a = some u) (hu : u.self.holds? m = some k) :
    s.self.holds? m = some k ∨ k = s.self.loops.length := by
  have same (hstage : u.self.stageOf m = s.self.stageOf m) : s.self.holds? m = some k := by
    rw [holds?, ← hstage]
    exact hu
  cases calling_of_perform hp with
  | stays other callers => exact .inl (same (by rw [stageOf, stageOf, callers]))
  | adds other request heal callers => exact .inl (same (stageOf_of_add rfl callers))
  | goes j c here stage goes callers =>
      by_cases hm : m = j
      · subst hm
        rw [holds?, stageOf_of_set here callers] at hu
        generalize c.stage = old at goes
        generalize u.self.slot = slot at goes
        cases goes with
        | starts => exact .inr (Option.some.inj hu).symm
        | _ => cases hu
      · exact .inl (same (stageOf_of_ne hm callers))

theorem holds_of_not_isOf (hk : s.self.holds? m = some k) (hnot : ¬ Moment.IsOf ⟨s, a⟩ m)
    (hp : s.perform a = some u) : u.self.holds? m = some k := by
  have same (hstage : u.self.stageOf m = s.self.stageOf m) : u.self.holds? m = some k := by
    rw [holds?, hstage]
    exact hk
  cases calling_of_perform hp with
  | stays other callers => exact same (by rw [stageOf, stageOf, callers])
  | adds other request heal callers => exact same (stageOf_of_add rfl callers)
  | goes j c here stage goes callers =>
      by_cases hm : m = j
      · exact absurd (hm ▸ goes.isOf) hnot
      · exact same (stageOf_of_ne hm callers)

theorem not_holds_of_isOf (hk : s.self.holds? m = some k) (hof : Moment.IsOf ⟨s, a⟩ m)
    (hp : s.perform a = some u) : u.self.holds? m = none := by
  obtain ⟨since, deadline, hstage⟩ := exists_of_holds hk
  obtain ⟨c, hc, hwaiting⟩ : ∃ c, s.self.callers[m]? = some c ∧
      c.stage = .waiting k since deadline true := by
    cases hc : s.self.callers[m]? with
    | none => simp [stageOf, hc] at hstage
    | some c => exact ⟨c, rfl, stageOf_of_some hc ▸ hstage⟩
  rcases hof with rfl | rfl
  · cases calling_of_perform hp with
    | stays other => exact absurd rfl (other m)
    | adds other => exact absurd rfl (other m)
    | goes j c' here stage goes callers =>
        have hj := goes.isOf
        simp only [Moment.IsOf, Action.step.injEq, Task.caller.injEq, reduceCtorEq, or_false] at hj
        subst hj
        obtain rfl := Option.some.inj (hc.symm.trans here)
        rw [holds?, stageOf_of_set here callers]
        rw [hwaiting] at goes
        generalize u.self.slot = slot at goes
        cases goes with
        | returns => rfl
        | expires => rfl
  · obtain rfl := Option.some.inj hp
    have hself := (abandon_frame s m).1
    simp only [abandonSelf, hc, Option.map_some, Option.getD_some, hwaiting] at hself
    have hgone : (s.abandon m).self.stageOf m = .gone := stageOf_of_set hc (by rw [hself]; simp)
    rw [holds?, hgone]
    rfl

/-! ### Loops that have ended -/

/-- A loop that has ended while its starter still waits has ended at some moment, and the starter
has not gone on since. -/
theorem ends_of_holds {l : Loop} (hs : s.IsStart) (ht : Trace s h t)
    (hk : t.self.holds? m = some k) (hl : t.self.loops[k]? = some l)
    (hend : l.stage = .finished outcome) :
    ∃ later e earlier, h = later ++ e :: earlier ∧ e.Ends k outcome ∧
      ∀ w ∈ later, ¬ w.IsOf m := by
  induction ht generalizing l with
  | start => simp [hs.loops_eq_nil] at hl
  | @step h t u a ht hp ih =>
      cases fares_of_perform hp hl with
      | proceeds y here acts => exact ⟨[], ⟨t, a⟩, h, rfl, ⟨acts, u, l, hp, hl, hend⟩, by simp⟩
      | starts new ready =>
          rw [ready] at hend
          cases hend
      | stays y here other stage =>
          have hlt : k < t.self.loops.length := (List.getElem?_eq_some_iff.mp here).1
          have hbefore := (holds_of_perform hp hk).resolve_right (by omega)
          obtain ⟨later, e, earlier, rfl, hends, hsince⟩ :=
            ih hbefore here (stage.symm.trans hend)
          refine ⟨⟨t, a⟩ :: later, e, earlier, rfl, hends, List.forall_mem_cons.mpr ⟨?_, hsince⟩⟩
          intro hof
          rw [not_holds_of_isOf hbefore hof hp] at hk
          cases hk

theorem holds_of_trace (hk : s.self.holds? m = some k) (ht : Trace s h t)
    (hnot : ∀ w ∈ h, ¬ w.IsOf m) : t.self.holds? m = some k := by
  induction ht with
  | start => exact hk
  | step _ hp ih =>
      obtain ⟨hlast, hnot⟩ := List.forall_mem_cons.mp hnot
      exact holds_of_not_isOf (ih hnot) hlast hp

/-- As long as the starter of a loop that has ended does not go on, the loop is in the slot. -/
theorem taken_of_ends (hs : s.IsStart) (ht : Trace s (later ++ e :: earlier) t)
    (hends : e.Ends k outcome) (hk : e.state.self.holds? m = some k)
    (hsince : ∀ w ∈ later, ¬ w.IsOf m) :
    t.self.slot = some k ∧ ∃ l, t.self.loops[k]? = some l ∧ l.stage = .finished outcome := by
  obtain ⟨-, u, hp, hlater⟩ := ht.split
  obtain ⟨haction, u', l, hp', hl, hend⟩ := hends
  obtain rfl := Option.some.inj (hp.symm.trans hp')
  have hholds : u.self.holds? m = some k :=
    holds_of_not_isOf hk (by simp [Moment.IsOf, haction]) hp
  have hkept : t.self.holds? m = some k := holds_of_trace hholds hlater hsince
  exact ⟨((attended_of_trace hs ht).slot k).mpr ⟨m, hkept⟩, finished_of_trace hl hend hlater⟩

/-! ### Calls that enter -/

/-- What a call comes to that enters an orchestrator which is not closed. -/
inductive Arrival (h : List Moment) (t u : State) (n : Nat) (request : Request) : Prop
  /-- No starter of a loop waits, and the call starts a loop. -/
  | starts (released : ∀ m k, t.self.holds? m ≠ some k) (l : Loop)
      (loop : u.self.loops[t.self.loops.length]? = some l) (ready : l.stage = .ready 1)
      (same : l.request = request)
      (stage : u.self.stageOf n = waitingFrom t.world.now t.self.loops.length true t.self)
  /-- It joins a loop that goes on; no moment has ended it. -/
  | joins (k m : Nat) (holds : t.self.holds? m = some k) (l : Loop)
      (loop : t.self.loops[k]? = some l) (running : l.isFinished = false)
      (never : ∀ e ∈ h, ∀ outcome, ¬ e.Ends k outcome) (loops : u.self.loops = t.self.loops)
      (stage : u.self.stageOf n = waitingFrom t.world.now k false t.self)
  /-- It joins a loop that ended before, since when the starter of the loop has not gone on, and
  is answered by its next step. -/
  | late (k m : Nat) (holds : t.self.holds? m = some k) (outcome : Option Outcome)
      (later earlier : List Moment) (e : Moment) (split : h = later ++ e :: earlier)
      (ends : e.Ends k outcome) (since : ∀ w ∈ later, ¬ w.IsOf m)
      (loops : u.self.loops = t.self.loops)
      (stage : u.self.stageOf n = waitingFrom t.world.now k false t.self)
      (answer : ∃ v, u.perform (.step (.caller n)) = some v ∧
        v.self.stageOf n = .finished t.world.now outcome) : Arrival h t u n request

theorem answered_of_late {l : Loop} (hl : u.self.loops[k]? = some l)
    (hend : l.stage = .finished outcome)
    (hstage : u.self.stageOf n = waitingFrom t.world.now k false t.self)
    (hnow : u.world.now = t.world.now) :
    ∃ v, u.perform (.step (.caller n)) = some v ∧
      v.self.stageOf n = .finished t.world.now outcome := by
  cases hc : u.self.callers[n]? with
  | none => simp [stageOf, hc, waitingFrom] at hstage
  | some c =>
      have hwaiting : c.stage = waitingFrom t.world.now k false t.self :=
        stageOf_of_some hc ▸ hstage
      have hfinished : l.isFinished = true := by simp [Loop.isFinished, hend]
      obtain ⟨v, hv⟩ := (stepCaller_isSome_of_waiting hc hwaiting hl).mpr (.inl hfinished)
      refine ⟨v, hv, ?_⟩
      rcases answered_of_waiting hc hwaiting hl hv with ⟨o, ho, hanswer⟩ | ⟨hrunning, -⟩
      · rw [LoopStage.finished.inj (hend.symm.trans ho), hanswer, hnow]
      · rw [hfinished] at hrunning
        cases hrunning

/-- A call that enters an orchestrator which is not closed starts a loop, or joins one that goes
on, or joins one that has ended: the latter if the starter of the loop has not gone on since its
end, and only then. -/
theorem arrival_of_entering {c : Caller} (hs : s.IsStart) (ht : Trace s h t)
    (hopen : t.self.isClosed = false) (hc : t.self.callers[n]? = some c)
    (hentering : c.stage = .entering) :
    (∃ u, t.perform (.step (.caller n)) = some u ∧ Arrival h t u n c.request) ∧
      ∀ later earlier e k m outcome, h = later ++ e :: earlier → e.Ends k outcome →
        e.state.self.holds? m = some k → (∀ w ∈ later, ¬ w.IsOf m) →
          t.self.slot = some k ∧
            ∃ l, t.self.loops[k]? = some l ∧ l.stage = .finished outcome := by
  constructor
  · obtain ⟨u, hp, hentered⟩ := entered_of_entering hc hentering
    refine ⟨u, hp, ?_⟩
    have hattended := attended_of_trace hs ht
    cases hentered with
    | refused closed =>
        rw [closed] at hopen
        cases hopen
    | started going free l stage slot loops last request ready =>
        refine .starts (fun m k hk => ?_) l last ready request stage
        rw [(hattended.slot k).mpr ⟨m, hk⟩] at free
        cases free
    | joined going k taken stage slot loops =>
        obtain ⟨m, hm⟩ := (hattended.slot k).mp taken
        have hk : k < t.self.loops.length := by
          have := last_of_slot hs ht taken
          omega
        have hl := List.getElem?_eq_getElem hk
        cases hfinished : t.self.loops[k].isFinished with
        | false =>
            refine .joins k m hm t.self.loops[k] hl hfinished (fun e he o hends => ?_) loops stage
            -- A loop that has ended stays at its end.
            obtain ⟨after, before, rfl, -, v, hv, hafter⟩ := ht.split_of_mem he
            obtain ⟨-, v', y, hv', hy, hyend⟩ := hends
            obtain rfl := Option.some.inj (hv.symm.trans hv')
            obtain ⟨y', hy', hkept⟩ := finished_of_trace hy hyend hafter
            obtain rfl := Option.some.inj (hl.symm.trans hy')
            simp [Loop.isFinished, hkept] at hfinished
        | true =>
            obtain ⟨o, ho⟩ := Loop.isFinished_iff.mp hfinished
            obtain ⟨later, e, earlier, hsplit, hends, hsince⟩ := ends_of_holds hs ht hm hl ho
            have hnow : u.world.now = t.world.now := (clock_of_perform hp).2
            exact .late k m hm o later earlier e hsplit hends hsince loops stage
              (answered_of_late (by rw [loops]; exact hl) ho stage hnow)
  · rintro later earlier e k m outcome rfl hends hk hsince
    exact taken_of_ends hs ht hends hk hsince

/-- A call is made after the loop of the first call has ended, and before the first call goes on. -/
def lateCall : List Action :=
  [.call .allFiles, .step (.caller 0), .step (.loop 0), .step (.transaction 0),
    .step (.transaction 0), .step (.loop 0), .call .allFiles]

theorem trace_lateCall : ∃ t c l, Trace bare (bare.history lateCall) t ∧
    t.self.isClosed = false ∧ t.self.callers[1]? = some c ∧ c.stage = .entering ∧
      t.self.slot = some 0 ∧ t.self.loops[0]? = some l ∧ l.isFinished = true := by
  have hrun : (bare.follow lateCall).map (fun t => (t.self.isClosed,
      (t.self.callers[1]?.map Caller.isEntering), t.self.slot,
      (t.self.loops[0]?.map Loop.isFinished))) = some (false, some true, some 0, some true) := by
    decide +kernel
  obtain ⟨t, ht, hv⟩ := trace_of_map hrun
  simp only [Prod.mk.injEq] at hv
  obtain ⟨hopen, hc, hslot, hl⟩ := hv
  obtain ⟨c, hc, hentering⟩ := Option.map_eq_some_iff.mp hc
  obtain ⟨l, hl, hfinished⟩ := Option.map_eq_some_iff.mp hl
  exact ⟨t, c, l, ht, hopen, hc, Caller.isEntering_iff.mp hentering, hslot, hl, hfinished⟩

theorem arrival_of_entering_of_lateCall : ∃ t c u, Trace bare (bare.history lateCall) t ∧
    t.self.callers[1]? = some c ∧ c.stage = .entering ∧
      t.perform (.step (.caller 1)) = some u ∧ Arrival (bare.history lateCall) t u 1 c.request ∧
        ∃ e ∈ bare.history lateCall, ∃ outcome, e.Ends 0 outcome := by
  obtain ⟨t, c, l, ht, hopen, hc, hentering, hslot, hl, hfinished⟩ := trace_lateCall
  obtain ⟨⟨u, hp, harrival⟩, -⟩ := arrival_of_entering isStart_bare ht hopen hc hentering
  refine ⟨t, c, u, ht, hc, hentering, hp, harrival, ?_⟩
  have taken {k m : Nat} (hk : t.self.holds? m = some k) : k = 0 := by
    have := ((attended_of_trace isStart_bare ht).slot k).mpr ⟨m, hk⟩
    rw [hslot] at this
    exact (Option.some.inj this).symm
  cases harrival with
  | starts released =>
      obtain ⟨m, hm⟩ := ((attended_of_trace isStart_bare ht).slot 0).mp hslot
      exact absurd hm (released m 0)
  | joins k m holds l' loop running =>
      obtain rfl := taken holds
      obtain rfl := Option.some.inj (hl.symm.trans loop)
      rw [hfinished] at running
      cases running
  | late k m holds outcome later earlier e split ends =>
      obtain rfl := taken holds
      exact ⟨e, by simp [split], outcome, ends⟩

/-- A call that enters does not always join a loop that goes on, or start one. -/
theorem not_running_of_joined :
    ¬ ∀ (s t : State) (h : List Moment) (n k : Nat) (c : Caller) (l : Loop), s.IsStart →
      Trace s h t → t.self.isClosed = false → t.self.callers[n]? = some c →
        c.stage = .entering → t.self.slot = some k → t.self.loops[k]? = some l →
          l.isFinished = false := by
  intro hall
  obtain ⟨t, c, l, ht, hopen, hc, hentering, hslot, hl, hfinished⟩ := trace_lateCall
  rw [hall bare t _ 1 0 c l isStart_bare ht hopen hc hentering hslot hl] at hfinished
  cases hfinished

end State

end PreviewDeploy
