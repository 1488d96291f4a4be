import PreviewDeploy.Proofs.Coalescing
import PreviewDeploy.Proofs.LoopStages

/-!
# Calls that are answered with nothing

A call is answered with nothing when it has waited long enough, or when the orchestrator is closed.
There is one other way (`State.unanswered_of_stepCaller`): the call has joined a loop whose starter
went away or gave up before, so the slot was free, and a later call took the place of that loop.
The loop then ends without an outcome, and the call that still waits for it is answered at once,
however long it might have waited.
-/

namespace PreviewDeploy

namespace State

variable {s t u : State} {a : Action} {h later earlier : List Moment} {e w : Moment}
  {n k since deadline time : Nat} {starter : Bool} {l : Loop} {told : Event}

/-! ### From when a call waits -/

theorem waiting_of_trace (ht : Trace s h t)
    (hwaiting : t.self.stageOf n = .waiting k since deadline starter) :
    s.self.stageOf n = .waiting k since deadline starter ∨ ∃ v ∈ h, v.enters n = true := by
  induction ht with
  | start => exact .inl hwaiting
  | @step h t u a ht hp ih =>
      have before (hsame : t.self.stageOf n = u.self.stageOf n) :
          s.self.stageOf n = .waiting k since deadline starter ∨
            ∃ v ∈ (⟨t, a⟩ :: h : List Moment), v.enters n = true := by
        refine (ih (hsame.trans hwaiting)).imp_right ?_
        rintro ⟨v, hv, henters⟩
        exact ⟨v, List.mem_cons_of_mem _ hv, henters⟩
      cases calling_of_perform hp with
      | stays other callers =>
          exact before (by rw [Orchestrator.stageOf, Orchestrator.stageOf, callers])
      | adds other request heal callers =>
          exact before (Orchestrator.stageOf_of_add rfl callers).symm
      | goes m c here stage goes callers =>
          by_cases hm : n = m
          · subst hm
            rw [Orchestrator.stageOf_of_set here callers] at hwaiting
            subst hwaiting
            generalize hold : c.stage = old at goes
            generalize u.self.slot = slot at goes
            cases goes with
            | joins => exact .inr ⟨_, List.mem_cons_self .., enters_of_entering here hold⟩
            | starts => exact .inr ⟨_, List.mem_cons_self .., enters_of_entering here hold⟩
          · exact before (Orchestrator.stageOf_of_ne hm callers).symm

/-- The call that waits has entered at one moment, which says for which loop it waits and until
when. -/
theorem entered_of_waiting (hs : s.IsStart) (ht : Trace s h t)
    (hwaiting : t.self.stageOf n = .waiting k since deadline starter) :
    ∃ w, h.filter (·.enters n) = [w] ∧ k = w.target ∧ since = w.state.world.now ∧
      deadline = w.due ∧ starter = w.state.self.slot.isNone := by
  have hfate := fate_of_trace hs ht n
  rw [hwaiting] at hfate
  cases hfate with
  | waits w once => exact ⟨w, once, rfl, rfl, rfl, rfl⟩

/-! ### A call whose loop is superseded -/

/-- A call waits for a loop that is superseded: it has entered before that. -/
theorem mem_of_superseded (hs : s.IsStart) (ht : Trace s (later ++ e :: earlier) t)
    (hw : w ∈ later ++ e :: earlier) (hsup : e.superseded? = some (w.target, told)) :
    w ∈ earlier := by
  obtain ⟨hearlier, u, hp, hlater⟩ := ht.split
  obtain ⟨-, -, -, -, -, -, -, free, hactive, -⟩ := Moment.superseded?_eq_some.mp hsup
  have hlast := (oneActive_of_trace hs hearlier).last w.target hactive
  have hlen := length_of_superseded hsup hp
  rcases List.mem_append.mp hw with hmem | hmem
  · -- Afterwards there is a newer loop, and calls wait for none but the last one.
    obtain ⟨after, before, rfl, hbefore, -⟩ := hlater.split_of_mem hmem
    have hle := loops_length_le_of_trace hbefore
    have htrace := (hearlier.step hp).append hbefore
    cases hslot : w.state.self.slot with
    | none =>
        have htarget : w.target = w.state.self.loops.length := by simp [Moment.target, hslot]
        omega
    | some j =>
        have htarget : w.target = j := by simp [Moment.target, hslot]
        have := last_of_slot hs htrace hslot
        omega
  · rcases List.mem_cons.mp hmem with rfl | hmem
    · have htarget : w.target = w.state.self.loops.length := by simp [Moment.target, free]
      omega
    · exact hmem

theorem joined_of_superseded (hs : s.IsStart) (ht : Trace s (later ++ e :: earlier) t)
    (hwaiting : t.self.stageOf n = .waiting k since deadline starter)
    (honce : (later ++ e :: earlier).filter (·.enters n) = [w]) (hw : w ∈ earlier)
    (hsup : e.superseded? = some (k, told)) : starter = false := by
  obtain ⟨hearlier, u, hp, hlater⟩ := ht.split
  obtain ⟨-, -, -, -, -, -, -, free, -⟩ := Moment.superseded?_eq_some.mp hsup
  have hfrom : Trace e.state (later ++ [e]) t := (Trace.start.step hp).append hlater
  -- The call has entered before, so it waits at the moment of the supersession already.
  have hbefore : e.state.self.stageOf n = .waiting k since deadline starter := by
    rcases waiting_of_trace hfrom hwaiting with hbefore | ⟨v, hv, henters⟩
    · exact hbefore
    · have henters' : w.enters n = true := by
        have hmem : w ∈ (later ++ e :: earlier).filter (·.enters n) := by simp [honce]
        exact (List.mem_filter.mp hmem).2
      have hsplit : later ++ e :: earlier = (later ++ [e]) ++ earlier := by simp
      have hlen := congrArg List.length honce
      rw [hsplit, List.filter_append, List.length_append, List.length_singleton] at hlen
      have hv' : 0 < ((later ++ [e]).filter (·.enters n)).length :=
        List.length_pos_of_mem (List.mem_filter.mpr ⟨hv, henters⟩)
      have hw' : 0 < (earlier.filter (·.enters n)).length :=
        List.length_pos_of_mem (List.mem_filter.mpr ⟨hw, henters'⟩)
      omega
  cases starter with
  | false => rfl
  | true =>
      have hholds : e.state.self.holds? n = some k := by
        rw [Orchestrator.holds?, hbefore]
        rfl
      have htaken := ((attended_of_trace hs hearlier).slot k).mpr ⟨n, hholds⟩
      rw [free] at htaken
      cases htaken

/-! ### Calls that are answered with nothing -/

/-- Why the n-th call is answered with nothing by its step from one state to another. -/
inductive Unanswered (h : List Moment) (t u : State) (n : Nat) : Prop
  /-- The orchestrator is closed. -/
  | closed (closed : t.self.isClosed = true) (silent : u.world.events = t.world.events)
  /-- The call has waited long enough since it has entered, and this is told. -/
  | waited (w : Moment) (once : h.filter (·.enters n) = [w]) (late : w.due ≤ t.world.now)
      (l : Loop) (loop : t.self.loops[w.target]? = some l) (running : l.isFinished = false)
      (told : u.world.events = t.world.events ++
        [.timedOut l.deployment (timeoutText t.self.config)
          (UInt64.ofNat (t.world.now - w.state.world.now))])
  /-- The call has joined a loop that was superseded since. -/
  | superseded (later between earlier : List Moment) (e w : Moment)
      (split : h = later ++ e :: (between ++ w :: earlier))
      (once : h.filter (·.enters n) = [w]) (joined : w.state.self.slot = some w.target)
      (supersedes : ∃ told, e.superseded? = some (w.target, told))
      (silent : u.world.events = t.world.events)

/-- A loop that a call waits for and that has ended without an outcome was superseded after the
call had joined it, unless the orchestrator is closed. -/
theorem superseded_of_ended (hs : s.IsStart) (ht : Trace s h t) (hopen : t.self.isClosed = false)
    (hwaiting : t.self.stageOf n = .waiting k since deadline starter)
    (loop : t.self.loops[k]? = some l) (ended : l.stage = .finished none) :
    ∃ later between earlier e w told, h = later ++ e :: (between ++ w :: earlier) ∧
      h.filter (·.enters n) = [w] ∧ w.state.self.slot = some w.target ∧
      e.superseded? = some (w.target, told) := by
  obtain ⟨w, once, rfl, rfl, rfl, rfl⟩ := entered_of_waiting hs ht hwaiting
  -- The loop was cancelled, so another one has taken its place.
  have hcancelled := cancelled_of_finished hs ht loop ended
  obtain ⟨later, e, before, told, rfl, hsup⟩ :=
    superseded_of_cancelled hs ht hopen loop hcancelled
  have hw : w ∈ later ++ e :: before := by
    have hmem : w ∈ (later ++ e :: before).filter (·.enters n) := by simp [once]
    exact (List.mem_filter.mp hmem).1
  have hbefore := mem_of_superseded hs ht hw hsup
  have hjoined := joined_of_superseded hs ht hwaiting once hbefore hsup
  obtain ⟨between, earlier, rfl⟩ := List.append_of_mem hbefore
  refine ⟨later, between, earlier, e, w, told, rfl, once, ?_, hsup⟩
  cases hslot : w.state.self.slot with
  | none => simp [hslot] at hjoined
  | some j => simp [Moment.target, hslot]

/-- A call is answered with nothing for one of three reasons. -/
theorem unanswered_of_stepCaller (hs : s.IsStart) (ht : Trace s h t)
    (hp : t.perform (.step (.caller n)) = some u)
    (hanswer : u.self.stageOf n = .finished time none) : Unanswered h t u n := by
  obtain ⟨c, hc, hstep⟩ := stepCaller_cases hp
  have admitted (hentering : c.stage = .entering) (hopen : t.self.isClosed = false) : False := by
    obtain ⟨v, hv, hentered⟩ := entered_of_entering hc hentering
    obtain rfl := Option.some.inj (hp.symm.trans hv)
    cases hentered with
    | refused closed =>
        rw [hopen] at closed
        cases closed
    | joined going k taken stage => cases hanswer.symm.trans stage
    | started going free l stage => cases hanswer.symm.trans stage
  cases hstep with
  | refused entering closed => exact .closed closed (by simp)
  | joins entering going => exact (admitted entering going).elim
  | starts entering going => exact (admitted entering going).elim
  | returns k since deadline starter waiting l loop outcome ended =>
      have hstage : t.self.stageOf n = .waiting k since deadline starter := by
        rw [Orchestrator.stageOf_of_some hc, waiting]
      have houtcome : outcome = none := by
        rcases answered_of_waiting hc waiting loop hp with ⟨o, ho, hanswer'⟩ | ⟨running, -⟩
        · obtain rfl := LoopStage.finished.inj (ended.symm.trans ho)
          exact (CallerStage.finished.inj (hanswer'.symm.trans hanswer)).2
        · simp [Loop.isFinished, ended] at running
      subst houtcome
      cases hclosed : t.self.isClosed with
      | true => exact .closed hclosed (by simp)
      | false =>
          obtain ⟨later, between, earlier, e, w, told, split, once, joined, hsup⟩ :=
            superseded_of_ended hs ht hclosed hstage loop ended
          exact .superseded later between earlier e w split once joined ⟨told, hsup⟩ (by simp)
  | expires k since deadline starter waiting l loop running late =>
      have hstage : t.self.stageOf n = .waiting k since deadline starter := by
        rw [Orchestrator.stageOf_of_some hc, waiting]
      obtain ⟨w, once, rfl, rfl, rfl, -⟩ := entered_of_waiting hs ht hstage
      exact .waited w once late l loop running (by simp [expiry])

/-- An orchestrator whose callers wait five seconds. -/
def brief : State := .start 0 none { masterTimeout := .ofMillis 5000 } {} [] {}

/-- A first call gives up while its attempt waits for an instance; a second one has joined its
deployment, and a third one supersedes it.  Then the attempt fails. -/
def bereft : List Action :=
  [.prepare { create := [⟨6000, .error (.network "down")⟩] }, .call .allFiles,
    .step (.caller 0), .step (.loop 0), .step (.transaction 0), .pass 3000, .call .allFiles,
    .step (.caller 1), .pass 2000, .step (.caller 0), .call .allFiles, .step (.caller 2),
    .step (.loop 1), .pass 1000, .step (.transaction 0), .step (.loop 0), .step (.loop 0)]

/-- When the `n`-th call was answered with nothing, if it was. -/
def unanswered? (n : Nat) (s : State) : Option Nat :=
  match s.self.stageOf n with
  | .finished time none => some time
  | _ => none

/-- The second call is answered with nothing, though it has waited three seconds only. -/
theorem trace_bereft : ∃ t u, Trace brief (brief.history bereft) t ∧
    t.perform (.step (.caller 1)) = some u ∧ u.self.stageOf 1 = .finished 6000 none ∧
      t.self.isClosed = false ∧
      ∀ w ∈ brief.history bereft, w.enters 1 = true → t.world.now < w.due := by
  have hrun : (brief.follow bereft).map (fun t => (t.world.now, t.self.isClosed,
      (t.perform (.step (.caller 1))).bind (unanswered? 1))) =
        some (6000, false, some 6000) := by
    decide +kernel
  have hdue : (brief.history bereft).all (fun w => !w.enters 1 || decide (6000 < w.due)) =
      true := by
    decide +kernel
  obtain ⟨t, ht, hv⟩ := trace_of_map hrun
  simp only [Prod.mk.injEq] at hv
  obtain ⟨hnow, hopen, hanswer⟩ := hv
  obtain ⟨u, hu, hstage⟩ := Option.bind_eq_some_iff.mp hanswer
  refine ⟨t, u, ht, hu, ?_, hopen, fun w hw henters => ?_⟩
  · unfold unanswered? at hstage
    split at hstage
    · rename_i time hfinished
      rw [hfinished, Option.some.inj hstage]
    · cases hstage
  · rw [hnow]
    simpa [henters] using List.all_eq_true.mp hdue w hw

theorem unanswered_of_stepCaller_of_bereft :
    ∃ later e between w earlier t u told,
      Trace brief (later ++ e :: (between ++ w :: earlier)) t ∧
        t.perform (.step (.caller 1)) = some u ∧ u.self.stageOf 1 = .finished 6000 none ∧
        w.state.self.slot = some w.target ∧ e.superseded? = some (w.target, told) ∧
        u.world.events = t.world.events := by
  obtain ⟨t, u, ht, hp, hanswer, hopen, hearly⟩ := trace_bereft
  cases unanswered_of_stepCaller ⟨0, none, _, {}, [], {}, rfl⟩ ht hp hanswer with
  | closed closed =>
      rw [hopen] at closed
      cases closed
  | waited w once late =>
      have hmem : w ∈ (brief.history bereft).filter (·.enters 1) := by simp [once]
      obtain ⟨hw, henters⟩ := List.mem_filter.mp hmem
      have := hearly w hw henters
      omega
  | superseded later between earlier e w split once joined supersedes silent =>
      obtain ⟨told, htold⟩ := supersedes
      rw [split] at ht
      exact ⟨later, e, between, w, earlier, t, u, told, ht, hp, hanswer, joined, htold, silent⟩

/-- A call can be answered with nothing before it has waited long enough, though the orchestrator
is not closed. -/
theorem not_waited_of_unanswered :
    ¬ ∀ (s t u : State) (h : List Moment) (n time : Nat), s.IsStart → Trace s h t →
      t.perform (.step (.caller n)) = some u → u.self.stageOf n = .finished time none →
        t.self.isClosed = true ∨ ∃ w ∈ h, w.enters n = true ∧ w.due ≤ t.world.now := by
  intro hall
  obtain ⟨t, u, ht, hp, hanswer, hopen, hearly⟩ := trace_bereft
  rcases hall brief t u _ 1 6000 ⟨0, none, _, {}, [], {}, rfl⟩ ht hp hanswer with
    hclosed | ⟨w, hw, henters, hlate⟩
  · rw [hopen] at hclosed
    cases hclosed
  · have := hearly w hw henters
    omega

end State

end PreviewDeploy
