import PreviewDeploy.Proofs.Coalescing
import PreviewDeploy.Proofs.Monitoring

/-!
# Healing

A watch that asks for healing takes itself away, and the call that is made to heal is to arm the
monitor again, by the success of the deployment that it starts or joins.  But a call can join a
loop that has succeeded already and now runs setup commands, and then there is no success to come
(`Moment.losesHeal`).  An orchestrator at rest has an armed monitor exactly if a success came after
every such moment (`State.isArmed_iff_of_atRest`).

Until then one of four things is true: the monitor is armed, the last loop has yet to succeed, a
call to heal has yet to enter, or one was lost (`State.Healing`).
-/

namespace PreviewDeploy

namespace Caller

def isEntering (c : Caller) : Bool :=
  match c.stage with
  | .entering => true
  | _ => false

theorem isEntering_iff {c : Caller} : c.isEntering = true ↔ c.stage = .entering := by
  unfold isEntering
  cases c.stage <;> simp

end Caller

namespace Orchestrator

/-- The n-th call was made to heal an instance, and has not entered yet. -/
def isToHeal (n : Nat) (o : Orchestrator) : Bool :=
  (o.callers[n]?.map fun c => c.heal && c.isEntering).getD false

/-- The loop that calls join has succeeded already. -/
def joinsLate (o : Orchestrator) : Bool :=
  ((o.slot.bind fun k => o.loops[k]?).map (·.hasSucceeded)).getD false

theorem isToHeal_iff {o : Orchestrator} {n : Nat} :
    o.isToHeal n = true ↔ ∃ c, o.callers[n]? = some c ∧ c.heal = true ∧ c.stage = .entering := by
  unfold isToHeal
  cases o.callers[n]? with
  | none => simp
  | some c => simp [Caller.isEntering_iff]

/-- The last loop, if there is one, has not succeeded yet. -/
def IsPending (o : Orchestrator) : Prop :=
  ∀ m l, o.loops[m]? = some l → m + 1 = o.loops.length → l.hasSucceeded = false

/-- Every loop has ended, no caller waits, the orchestrator is not closed, and a deployment was
completed. -/
structure AtRest (o : Orchestrator) : Prop where
  loops : ∀ l ∈ o.loops, l.isFinished = true
  callers : ∀ c ∈ o.callers, c.isDone = true
  going : o.isClosed = false
  completed : ∃ l ∈ o.loops, ∃ outcome, l.stage = .finished (some outcome)

end Orchestrator

/-- A call to heal is lost at a moment: it joins a loop that has succeeded already, or goes away
before it has entered, while the monitor is not armed. -/
def Moment.losesHeal (e : Moment) : Bool :=
  !e.state.self.monitor.isArmed &&
    match e.action with
    | .step (.caller n) => e.state.self.isToHeal n && e.state.self.joinsLate
    | .abandon n => e.state.self.isToHeal n
    | _ => false

namespace State

variable {s t u : State} {a : Action} {h later earlier : List Moment} {e : Moment} {m n : Nat}
  {l l' : Loop}

/-! ### Arming -/

theorem isArmed_of_success (hsuccess : (Moment.success? ⟨s, a⟩).isSome = true)
    (hp : s.perform a = some u) : u.self.monitor.isArmed = true := by
  cases watching_of_perform hp with
  | arms n x success monitor =>
      rw [monitor, armedSelf]
      cases harmed : s.self.monitor.isArmed with
      | true =>
          split
          · simp [Monitor.isArmed]
          · exact harmed
      | false => simp [Monitor.isArmed]
  | ticks => cases hsuccess
  | shuts => cases hsuccess
  | closes idle => simp [idle.unsuccessful] at hsuccess
  | stays idle => simp [idle.unsuccessful] at hsuccess

theorem isArmed_of_unsuccessful (hnone : Moment.success? ⟨s, a⟩ = none)
    (hunarmed : s.self.monitor.isArmed = false) (hp : s.perform a = some u) :
    u.self.monitor.isArmed = false := by
  have hbefore : s.self.monitor.armed = none := by simpa [Monitor.isArmed] using hunarmed
  cases watching_of_perform hp with
  | arms n x success =>
      rw [success] at hnone
      cases hnone
  | ticks n w heals here ticks =>
      generalize u.self.monitor = monitor at ticks
      cases ticks with
      | stays => simp [Monitor.isArmed, hbefore]
      | heals => rfl
  | shuts going monitor => simp [Monitor.isArmed, monitor]
  | closes idle monitor => simp [Monitor.isArmed, monitor, hbefore]
  | stays idle monitor => rw [monitor, hunarmed]

theorem isArmed_of_trace (hnone : ∀ w ∈ h, w.success? = none)
    (hunarmed : s.self.monitor.isArmed = false) (ht : Trace s h t) :
    t.self.monitor.isArmed = false := by
  induction ht with
  | start => exact hunarmed
  | step _ hp ih =>
      obtain ⟨hlast, hbefore⟩ := List.forall_mem_cons.mp hnone
      exact isArmed_of_unsuccessful hlast (ih hbefore) hp

/-- A monitor that is not armed any more has asked for healing, unless the orchestrator is closed;
then a call to heal has been added. -/
theorem exists_isToHeal_of_unarmed (ho : s.self.Monitored) (harmed : s.self.monitor.isArmed = true)
    (hunarmed : u.self.monitor.isArmed = false) (hopen : u.self.isClosed = false)
    (hp : s.perform a = some u) : ∃ n, u.self.isToHeal n = true := by
  have hbefore : s.self.isClosed = false := isOpen_of_perform hopen hp
  cases watching_of_perform hp with
  | arms n x success =>
      have := isArmed_of_success (by rw [success]; rfl) hp
      rw [hunarmed] at this
      cases this
  | ticks n w heals here ticks asks callers =>
      generalize u.self.monitor = monitor at ticks hunarmed
      cases ticks with
      | stays =>
          simp only [Monitor.isArmed, Monitor.setStage_frame] at hunarmed
          rw [Monitor.isArmed, hunarmed] at harmed
          cases harmed
      | heals =>
          have hcallers := callers rfl
          rw [healedSelf, if_pos (ho.heeded hbefore)] at hcallers
          refine ⟨s.self.callers.length, Orchestrator.isToHeal_iff.mpr ?_⟩
          exact ⟨_, by rw [hcallers]; exact List.getElem?_concat_length .., rfl, rfl⟩
  | shuts going monitor => simp [Orchestrator.isClosed, monitor] at hopen
  | closes idle monitor => simp [Orchestrator.isClosed, monitor] at hopen
  | stays idle monitor =>
      rw [monitor, harmed] at hunarmed
      cases hunarmed

/-! ### The last loop -/

theorem Fares.hasSucceeded (hf : Fares s m a l') (hsucceeded : l'.hasSucceeded = true) :
    (Moment.success? ⟨s, a⟩).isSome = true ∨
      ∃ l, s.self.loops[m]? = some l ∧ l.hasSucceeded = true := by
  unfold Loop.hasSucceeded at hsucceeded
  cases hf with
  | proceeds l here acts stage =>
      subst acts
      generalize l'.stage = stage' at stage hsucceeded
      cases stage with
      | stops => cases hsucceeded
      | begins => cases hsucceeded
      | fails => cases hsucceeded
      | retries => cases hsucceeded
      | succeeds x success => exact .inl (by rw [success]; rfl)
      | setsUp x success => exact .inl (by rw [success]; rfl)
      | completes attempt x reply settingUp =>
          exact .inr ⟨l, here, by simp [Loop.hasSucceeded, settingUp]⟩
  | starts new ready =>
      rw [ready] at hsucceeded
      cases hsucceeded
  | stays l here other stage =>
      refine .inr ⟨l, here, ?_⟩
      unfold Loop.hasSucceeded
      rw [← stage]
      exact hsucceeded

theorem isPending_of_perform (hpending : s.self.IsPending)
    (hnone : Moment.success? ⟨s, a⟩ = none) (hp : s.perform a = some u) : u.self.IsPending := by
  intro m l' hl' hlast
  cases hsucceeded : l'.hasSucceeded with
  | false => rfl
  | true =>
      rcases (fares_of_perform hp hl').hasSucceeded hsucceeded with hsuccess | ⟨l, hl, hbefore⟩
      · rw [hnone] at hsuccess
        cases hsuccess
      · -- It was there before, so it was the last one then.
        have hlt : m < s.self.loops.length := (List.getElem?_eq_some_iff.mp hl).1
        have hle := loops_length_le_of_perform hp
        have hfalse := hpending m l hl (by omega)
        rw [hbefore] at hfalse
        cases hfalse

/-- After a call has entered, the last loop has not succeeded yet, unless the call has joined one
that has. -/
theorem isPending_of_entered (hs : s.IsStart) (ht : Trace s h t) {c : Caller}
    (hc : t.self.callers[n]? = some c) (hentering : c.stage = .entering)
    (hopen : u.self.isClosed = false) (hp : t.perform (.step (.caller n)) = some u) :
    t.self.joinsLate = true ∨ u.self.IsPending := by
  obtain ⟨v, hv, hentered⟩ := entered_of_entering hc hentering
  obtain rfl := Option.some.inj (hp.symm.trans hv)
  cases hentered with
  | refused closed =>
      rw [isClosed_of_perform closed hp] at hopen
      cases hopen
  | joined going k taken stage slot loops =>
      have hlast := last_of_slot hs ht taken
      have hk : k < t.self.loops.length := by omega
      cases hlate : t.self.joinsLate with
      | true => exact .inl rfl
      | false =>
          refine .inr fun m l hl hm => ?_
          rw [loops] at hl hm
          obtain rfl : m = k := by omega
          simpa [Orchestrator.joinsLate, taken, hl] using hlate
  | started going free l stage slot loops last request ready =>
      refine .inr fun m l' hl' hm => ?_
      obtain rfl : m = t.self.loops.length := by omega
      obtain rfl := Option.some.inj (last.symm.trans hl')
      simp [Loop.hasSucceeded, ready]

/-! ### What heals -/

/-- What there is to keep an orchestrator healthy. -/
inductive Healing (h : List Moment) (t : State) : Prop
  | armed (armed : t.self.monitor.isArmed = true)
  /-- The success of the last loop will arm the monitor. -/
  | pending (pending : t.self.IsPending)
  | calls (n : Nat) (call : t.self.isToHeal n = true)
  /-- A call to heal was lost, and no loop has succeeded since. -/
  | lost (later earlier : List Moment) (e : Moment) (split : h = later ++ e :: earlier)
      (loses : e.losesHeal = true) (since : ∀ w ∈ later, w.success? = none)

/-- A call that is to heal still is, or enters, or goes away. -/
theorem isToHeal_of_perform (hcall : s.self.isToHeal n = true) (hp : s.perform a = some u) :
    u.self.isToHeal n = true ∨ a = .step (.caller n) ∨ a = .abandon n := by
  obtain ⟨c, hc, hheal, hentering⟩ := Orchestrator.isToHeal_iff.mp hcall
  cases calling_of_perform hp with
  | stays other callers =>
      exact .inl (Orchestrator.isToHeal_iff.mpr ⟨c, callers ▸ hc, hheal, hentering⟩)
  | adds other request heal callers =>
      refine .inl (Orchestrator.isToHeal_iff.mpr ⟨c, ?_, hheal, hentering⟩)
      rw [callers]
      exact getElem?_concat_of_some hc
  | goes m c' here stage goes callers =>
      by_cases hm : m = n
      · subst hm
        obtain rfl := Option.some.inj (hc.symm.trans here)
        rw [hentering] at goes
        generalize u.self.slot = slot at goes
        cases goes with
        | refused => exact .inr (.inl rfl)
        | joins => exact .inr (.inl rfl)
        | starts => exact .inr (.inl rfl)
        | withdraws => exact .inr (.inr rfl)
      · refine .inl (Orchestrator.isToHeal_iff.mpr ⟨c, ?_, hheal, hentering⟩)
        rw [callers]
        simp [Orchestrator.setCaller, hm, hc]

theorem healing_of_perform (hs : s.IsStart) (ht : Trace s h t) (hopen : u.self.isClosed = false)
    (hheal : Healing h t) (hp : t.perform a = some u) : Healing (⟨t, a⟩ :: h) u := by
  cases hafter : u.self.monitor.isArmed with
  | true => exact .armed hafter
  | false =>
      have hnone : Moment.success? ⟨t, a⟩ = none := by
        cases hsuccess : Moment.success? ⟨t, a⟩ with
        | none => rfl
        | some x =>
            have harmed := isArmed_of_success (by rw [hsuccess]; rfl) hp
            rw [hafter] at harmed
            cases harmed
      cases hbefore : t.self.monitor.isArmed with
      | true =>
          have ho := monitored_of_trace hs.monitored ht
          obtain ⟨n, hcall⟩ := exists_isToHeal_of_unarmed ho hbefore hafter hopen hp
          exact .calls n hcall
      | false =>
          cases hheal with
          | armed armed =>
              rw [hbefore] at armed
              cases armed
          | pending pending => exact .pending (isPending_of_perform pending hnone hp)
          | lost later earlier e split loses since =>
              exact .lost (⟨t, a⟩ :: later) earlier e (by rw [split]; rfl) loses
                (List.forall_mem_cons.mpr ⟨hnone, since⟩)
          | calls n call =>
              rcases isToHeal_of_perform call hp with hcall | rfl | rfl
              · exact .calls n hcall
              · obtain ⟨c, hc, -, hentering⟩ := Orchestrator.isToHeal_iff.mp call
                rcases isPending_of_entered hs ht hc hentering hopen hp with hlate | hpending
                · exact .lost [] h ⟨t, .step (.caller n)⟩ rfl
                    (by simp [Moment.losesHeal, hbefore, call, hlate]) (by simp)
                · exact .pending hpending
              · exact .lost [] h ⟨t, .abandon n⟩ rfl
                  (by simp [Moment.losesHeal, hbefore, call]) (by simp)

theorem healing_of_trace (hs : s.IsStart) (ht : Trace s h t) (hopen : t.self.isClosed = false) :
    Healing h t := by
  induction ht with
  | start =>
      obtain ⟨number, config, blueprint, setup, hself⟩ := hs.eq_withConfig
      refine .pending ?_
      simp [Orchestrator.IsPending, hself, Orchestrator.withConfig]
  | step ht hp ih => exact healing_of_perform hs ht hopen (ih (isOpen_of_perform hopen hp)) hp

/-! ### Orchestrators at rest -/

theorem not_isPending_of_atRest (hs : s.IsStart) (ht : Trace s h t) (hrest : t.self.AtRest) :
    ¬ t.self.IsPending := by
  intro hpending
  obtain ⟨l, hl, -⟩ := hrest.completed
  have hpos : 0 < t.self.loops.length := List.length_pos_of_mem hl
  have hlast : t.self.loops[t.self.loops.length - 1]? =
      some t.self.loops[t.self.loops.length - 1] := List.getElem?_eq_getElem (by omega)
  have hsucceeded := hpending _ _ hlast (by omega)
  have hfinished := hrest.loops _ (List.mem_of_getElem? hlast)
  generalize t.self.loops[t.self.loops.length - 1] = y at hlast hsucceeded hfinished
  rcases Loop.outcome_of_isFinished hfinished with ⟨hend, -⟩ | ⟨-, htrue⟩
  · -- A loop without an outcome was cancelled, so it is not the last one.
    have hcancelled := cancelled_of_finished hs ht hlast hend
    have hlt := lt_of_cancelled hs ht hrest.going hlast hcancelled
    omega
  · rw [hsucceeded] at htrue
    cases htrue

theorem not_isToHeal_of_atRest (hrest : t.self.AtRest) : t.self.isToHeal n = false := by
  rw [Bool.eq_false_iff]
  intro hcall
  obtain ⟨c, hc, -, hentering⟩ := Orchestrator.isToHeal_iff.mp hcall
  have hdone := hrest.callers c (List.mem_of_getElem? hc)
  simp [Caller.isDone, hentering] at hdone

/-- While a call to heal is lost the monitor is not armed, and no loop succeeds. -/
theorem unarmed_of_losesHeal (hloses : e.losesHeal = true) :
    e.state.self.monitor.isArmed = false ∧ e.success? = none := by
  unfold Moment.losesHeal at hloses
  simp only [Bool.and_eq_true, Bool.not_eq_true'] at hloses
  obtain ⟨hunarmed, hcall⟩ := hloses
  refine ⟨hunarmed, Moment.success?_of_other fun n haction => ?_⟩
  rw [haction] at hcall
  cases hcall

/-- An orchestrator at rest has an armed monitor, unless a call to heal was lost and no loop has
succeeded since. -/
theorem isArmed_iff_of_atRest (hs : s.IsStart) (ht : Trace s h t) (hrest : t.self.AtRest) :
    t.self.monitor.isArmed = true ↔
      ∀ later e earlier, h = later ++ e :: earlier → e.losesHeal = true →
        ∃ w ∈ later, w.success?.isSome = true := by
  constructor
  · intro harmed later e earlier hsplit hloses
    cases hany : later.any (·.success?.isSome) with
    | true => exact List.any_eq_true.mp hany
    | false =>
        -- The call is lost while the monitor is not armed, and only a success arms it.
        have hnone (w : Moment) (hw : w ∈ later) : w.success? = none := by
          simpa using List.any_eq_false.mp hany w hw
        rw [hsplit] at ht
        obtain ⟨-, u, hp, hlater⟩ := ht.split
        obtain ⟨hunarmed, hsilent⟩ := unarmed_of_losesHeal hloses
        have := isArmed_of_trace hnone (isArmed_of_unsuccessful hsilent hunarmed hp) hlater
        rw [harmed] at this
        cases this
  · intro hkept
    cases healing_of_trace hs ht hrest.going with
    | armed armed => exact armed
    | pending pending => exact absurd pending (not_isPending_of_atRest hs ht hrest)
    | calls n call =>
        rw [not_isToHeal_of_atRest hrest] at call
        cases call
    | lost later earlier e split loses since =>
        obtain ⟨w, hw, hsuccess⟩ := hkept later e earlier split loses
        rw [since w hw] at hsuccess
        cases hsuccess

/-- An orchestrator whose first success runs a command, and which asks for the status of its
instance every second. -/
def watchful : State :=
  .start 0 none { healthInterval := .ofMillis 1000 } {} ["npm run build"] {}

/-- The instance is found unhealthy while the command runs, and the call to heal joins the
deployment that has succeeded. -/
def lostHeal : List Action :=
  [.prepare
      { status := [⟨0, .ok { success := true, isHealthy := false }⟩]
        commands := [⟨1500, .ok { success := true, results := [] }⟩] },
    .call .allFiles, .step (.caller 0), .step (.loop 0), .step (.transaction 0),
    .step (.transaction 0), .step (.loop 0), .pass 1000, .step (.watch 0), .step (.watch 0),
    .step (.caller 1), .pass 500, .step (.loop 0), .step (.caller 0), .step (.caller 1)]

theorem trace_lostHeal : ∃ t, Trace watchful (watchful.history lostHeal) t ∧ t.self.AtRest ∧
    t.self.monitor.isArmed = false := by
  have hrun : (watchful.follow lostHeal).map (fun t =>
      (t.self.loops.map (·.isFinished), t.self.loops.map (·.hasSucceeded),
        t.self.callers.map (·.isDone), t.self.isClosed, t.self.monitor.isArmed)) =
      some ([true], [true], [true, true], false, false) := by
    decide +kernel
  obtain ⟨t, ht, hv⟩ := trace_of_map hrun
  simp only [Prod.mk.injEq] at hv
  obtain ⟨hloops, hsucceeded, hcallers, hopen, harmed⟩ := hv
  have hall {p : Bool} (hp : p ∈ [true]) : p = true := by simpa using hp
  refine ⟨t, ht, ⟨fun l hl => ?_, fun c hc => ?_, hopen, ?_⟩, harmed⟩
  · exact hall (hloops ▸ List.mem_map_of_mem hl)
  · have hmem := hcallers ▸ List.mem_map_of_mem (f := fun c : Caller => c.isDone) hc
    simpa using hmem
  · obtain ⟨l, rest, hl, hl', -⟩ := List.map_eq_cons_iff.mp hsucceeded
    have hmem : l ∈ t.self.loops := by simp [hl]
    have hend : l.isFinished = true := hall (hloops ▸ List.mem_map_of_mem hmem)
    rcases Loop.outcome_of_isFinished hend with ⟨-, hfalse⟩ | ⟨houtcome, -⟩
    · rw [hl'] at hfalse
      cases hfalse
    · exact ⟨l, hmem, houtcome⟩

theorem isArmed_iff_of_atRest_of_lostHeal :
    ∃ later e earlier t, Trace watchful (later ++ e :: earlier) t ∧ t.self.AtRest ∧
      e.losesHeal = true ∧ ∀ w ∈ later, w.success? = none := by
  obtain ⟨t, ht, hrest, harmed⟩ := trace_lostHeal
  have hnot : ¬ ∀ later e earlier, watchful.history lostHeal = later ++ e :: earlier →
      e.losesHeal = true → ∃ w ∈ later, w.success?.isSome = true := by
    intro hkept
    have htrue := (isArmed_iff_of_atRest ⟨0, none, _, {}, _, {}, rfl⟩ ht hrest).mpr hkept
    rw [harmed] at htrue
    cases htrue
  obtain ⟨later, hnot⟩ := Classical.not_forall.mp hnot
  obtain ⟨e, hnot⟩ := Classical.not_forall.mp hnot
  obtain ⟨earlier, hnot⟩ := Classical.not_forall.mp hnot
  obtain ⟨hsplit, hnot⟩ := Classical.not_forall.mp hnot
  obtain ⟨hloses, hnever⟩ := Classical.not_forall.mp hnot
  refine ⟨later, e, earlier, t, hsplit ▸ ht, hrest, hloses, fun w hw => ?_⟩
  cases hsuccess : w.success? with
  | none => rfl
  | some x => exact absurd ⟨w, hw, by rw [hsuccess]; rfl⟩ hnever

/-- A call to heal can be lost: at rest the monitor is not always armed. -/
theorem not_isArmed_of_atRest :
    ¬ ∀ (s t : State) (h : List Moment), s.IsStart → Trace s h t → t.self.AtRest →
      t.self.monitor.isArmed = true := by
  intro hall
  obtain ⟨t, ht, hrest, harmed⟩ := trace_lostHeal
  have htrue := hall watchful t _ ⟨0, none, _, {}, _, {}, rfl⟩ ht hrest
  rw [harmed] at htrue
  cases htrue

end State

end PreviewDeploy
