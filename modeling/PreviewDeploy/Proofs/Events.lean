import PreviewDeploy.Proofs.ActiveLoop

/-!
# What observers are told

Each action tells a few events (`State.told_of_perform`): one for each loop that it starts, one for
a loop whose deployment is superseded, and one for a caller that gives up.  Time passes by itself
and by nothing else, and the configuration is never another one (`State.clock_of_perform`).
-/

namespace PreviewDeploy

namespace Event

def isTimedOut : Event → Bool
  | timedOut .. => true
  | _ => false

def isSuperseded : Event → Bool
  | superseded .. => true
  | _ => false

/-- The deployment that an event tells the start of. -/
def started? : Event → Option DeploymentId
  | started deployment .. => some deployment
  | _ => none

end Event

/-- The caller that gives up at a moment, and what is told of it. -/
def Moment.expired? (e : Moment) : Option (Nat × Event) :=
  match e.action with
  | .step (.caller n) =>
    match e.state.self.callers[n]?.map Caller.stage with
    | some (.waiting k since _ _) =>
      match e.state.self.loops[k]? with
      | some l =>
        if l.isFinished then none else some (n, State.expiry since l.deployment e.state)
      | none => none
    | _ => none
  | _ => none

/-- The loop whose place a new deployment takes at a moment, and what is told of it. -/
def Moment.superseded? (e : Moment) : Option (Nat × Event) :=
  match e.action with
  | .step (.caller n) =>
    match e.state.self.callers[n]?.map Caller.stage with
    | some .entering =>
      if e.state.self.isClosed || e.state.self.slot.isSome then none
      else (State.superseded? e.state.self).map fun x =>
        (x.1, .superseded x.2.deployment e.state.world.mintDeployment.1)
    | _ => none
  | _ => none

namespace State

variable {s u : State} {a : Action}

theorem clock_of_stepLoop {n : Nat} (h : s.stepLoop n = some u) :
    u.self.config = s.self.config ∧ u.world.now = s.world.now := by
  obtain ⟨l, -, hs⟩ := stepLoop_cases h
  cases hs with
  | stops => simp [Orchestrator.setLoop]
  | begins attempt ready going =>
      simp [beginAttempt_frame s going, attemptSelf, Orchestrator.setLoop]
  | succeeds attempt session k deadline attempting e =>
      by_cases hset : s.self.setup = []
      · simp [succeed_of_nil s hset n l attempt e, Orchestrator.setLoop]
      · obtain ⟨⟨reply, hself⟩, -, hnow, -⟩ := succeed_of_ne_nil s hset n l attempt e
        exact ⟨by simp [hself, Orchestrator.setLoop], hnow⟩
  | fails => simp [Orchestrator.setLoop]
  | retries => simp [Orchestrator.setLoop]
  | completes => simp [Orchestrator.setLoop]

theorem clock_of_stepCaller {n : Nat} (h : s.stepCaller n = some u) :
    u.self.config = s.self.config ∧ u.world.now = s.world.now := by
  obtain ⟨c, -, hs⟩ := stepCaller_cases h
  cases hs <;> simp [Orchestrator.setCaller]

theorem clock_of_perform (h : s.perform a = some u) :
    u.self.config = s.self.config ∧ u.world.now = s.world.now + a.elapsed := by
  cases deed_of_perform h with
  | transaction n hstep =>
      obtain ⟨t, site, stage, -, hstep', hself, -, hnow, -⟩ := stepTransaction_cases hstep
      obtain ⟨hkeeps, -⟩ := Transaction.advances_of_step hstep'
      exact ⟨by simp [hself, advanceSelf, Orchestrator.setTransaction], hnow.trans hkeeps.now⟩
  | loop n hstep => exact clock_of_stepLoop hstep
  | caller n hstep => exact clock_of_stepCaller hstep
  | watch n hstep =>
      obtain ⟨site, monitor, heals, hkeeps, hself, -, hnow, -⟩ := stepWatch_cases hstep
      refine ⟨?_, hnow.trans hkeeps.now⟩
      rw [hself]
      split <;> simp
  | passes => exact ⟨rfl, rfl⟩
  | calls => simp [Action.elapsed]
  | abandons => simp [Action.elapsed]
  | shuts => simp [Action.elapsed]
  | releases => simp [Action.elapsed]
  | sets _ elapsed self _ now =>
      obtain ⟨setup, debugging, hself⟩ := self
      exact ⟨by rw [hself], by rw [now, elapsed, Nat.add_zero]⟩

/-- What an action tells: that a caller gives up, that a deployment is superseded, and the starts of
the loops that are new. -/
structure Tells (s u : State) (a : Action) (told : List Event) : Prop where
  events : u.world.events = s.world.events ++ told
  expired : told.filter Event.isTimedOut = ((Moment.expired? ⟨s, a⟩).map (·.2)).toList
  superseded : told.filter Event.isSuperseded = ((Moment.superseded? ⟨s, a⟩).map (·.2)).toList
  started : u.self.loops.map (·.deployment) =
    s.self.loops.map (·.deployment) ++ told.filterMap Event.started?

/-- The event is none of those that `Tells` is about. -/
def IsPlain (e : Event) : Prop :=
  e.isTimedOut = false ∧ e.isSuperseded = false ∧ e.started? = none

theorem Tells.of_plain {told : List Event} (events : u.world.events = s.world.events ++ told)
    (plain : ∀ e ∈ told, IsPlain e) (unexpired : Moment.expired? ⟨s, a⟩ = none)
    (lasting : Moment.superseded? ⟨s, a⟩ = none)
    (loops : u.self.loops.map (·.deployment) = s.self.loops.map (·.deployment)) :
    Tells s u a told := by
  refine ⟨events, ?_, ?_, ?_⟩
  · rw [unexpired, Option.map_none, Option.toList_none, List.filter_eq_nil_iff]
    exact fun e he => by simp [(plain e he).1]
  · rw [lasting, Option.map_none, Option.toList_none, List.filter_eq_nil_iff]
    exact fun e he => by simp [(plain e he).2.1]
  · rw [loops, List.filterMap_eq_nil_iff.mpr fun e he => (plain e he).2.2, List.append_nil]

theorem map_modify_of_eq {α β : Type} {f : α → α} {g : α → β} (h : ∀ x, g (f x) = g x)
    (xs : List α) (n : Nat) : (xs.modify n f).map g = xs.map g := by
  refine List.ext_getElem? fun k => ?_
  simp only [List.getElem?_map, List.getElem?_modify, Option.map_eq_map, Option.map_map]
  congr 1
  funext x
  simp only [Function.comp]
  split
  · exact h x
  · rfl

theorem map_deployment_loopsAfter (o : Orchestrator) :
    (loopsAfter o).map (·.deployment) = o.loops.map (·.deployment) := by
  unfold loopsAfter
  split
  · exact map_modify_of_eq (by simp) _ _
  · rfl

theorem map_deployment_leftSelf (o : Orchestrator) :
    (leftSelf o).loops.map (·.deployment) = o.loops.map (·.deployment) := by
  rcases leftSelf_loops o with h | ⟨h, -⟩
  · rw [h]
  · simp [h]

theorem deployments_of_perform (h : s.perform a = some u)
    (closed : ∀ n, a = .step (.caller n) → s.self.isClosed = true) :
    u.self.loops.map (·.deployment) = s.self.loops.map (·.deployment) := by
  cases looping_of_perform h with
  | moves n l stage here step loops =>
      rw [loops]
      exact map_modify_of_eq (by simp) _ _
  | starts n c here entering going =>
      rw [closed n rfl] at going
      cases going
  | closes loops => simp [loops]
  | stays loops => rw [loops]

theorem told_of_stepLoop {n : Nat} (h : s.stepLoop n = some u) :
    ∃ told, Tells s u (.step (.loop n)) told := by
  have loops := deployments_of_perform (a := .step (.loop n)) h (by simp)
  obtain ⟨l, -, hs⟩ := stepLoop_cases h
  have silent (events : u.world.events = s.world.events) :
      ∃ told, Tells s u (.step (.loop n)) told :=
    ⟨[], .of_plain (by simp [events]) (by simp) rfl rfl loops⟩
  cases hs with
  | stops => exact silent (by simp)
  | begins attempt ready going => exact silent (by simp [beginAttempt_frame s going])
  | succeeds attempt session k deadline attempting e =>
      by_cases hset : s.self.setup = []
      · obtain ⟨-, -, -, -, -, events⟩ := succeed_of_nil s hset n l attempt e
        refine ⟨_, .of_plain events (fun e he => ?_) rfl rfl loops⟩
        rw [List.mem_singleton.mp he]
        exact ⟨rfl, rfl, rfl⟩
      · obtain ⟨-, -, -, -, -, events⟩ := succeed_of_ne_nil s hset n l attempt e
        exact silent events
  | fails attempt session k deadline attempting f =>
      refine ⟨failureEvents l attempt session f s, .of_plain (by simp) ?_ rfl rfl loops⟩
      intro e he
      unfold failureEvents at he
      rcases List.mem_append.mp he with he | he
      · split at he
        · rw [List.mem_singleton.mp he]
          exact ⟨rfl, rfl, rfl⟩
        · cases he
      · rw [List.mem_singleton.mp he]
        exact ⟨rfl, rfl, rfl⟩
  | retries => exact silent (by simp)
  | completes attempt e =>
      refine ⟨[completion l attempt e s.world.now],
        .of_plain (by simp) (fun e he => ?_) rfl rfl loops⟩
      rw [List.mem_singleton.mp he]
      exact ⟨rfl, rfl, rfl⟩

theorem told_of_stepCaller {n : Nat} (h : s.stepCaller n = some u) :
    ∃ told, Tells s u (.step (.caller n)) told := by
  obtain ⟨c, hc, hs⟩ := stepCaller_cases h
  cases hs with
  | refused entering closed =>
      exact ⟨[], .of_plain (by simp) (by simp) (by simp [Moment.expired?, hc, entering])
        (by simp [Moment.superseded?, hc, entering, closed])
        (by simp [map_deployment_leftSelf, Orchestrator.setCaller])⟩
  | joins entering going k taken =>
      exact ⟨[], .of_plain (by simp) (by simp) (by simp [Moment.expired?, hc, entering])
        (by simp [Moment.superseded?, hc, entering, taken])
        (by simp [Orchestrator.setCaller])⟩
  | starts entering going free =>
      refine ⟨startEvents c.request s, by simp, ?_, ?_, ?_⟩
      · have htold : (startEvents c.request s).filter Event.isTimedOut = [] := by
          unfold startEvents supersession
          split <;> simp [Event.isTimedOut]
        simp [htold, Moment.expired?, hc, entering]
      · simp only [Moment.superseded?, hc, entering, going, free, Option.map_some]
        unfold startEvents supersession
        cases superseded? s.self with
        | none => rfl
        | some x => rfl
      · have htold : (startEvents c.request s).filterMap Event.started? =
            [s.world.mintDeployment.1] := by
          unfold startEvents supersession
          split <;> rfl
        simp [htold, Orchestrator.setCaller, map_deployment_loopsAfter, newLoop]
  | returns k since deadline starter waiting l loop outcome ended =>
      exact ⟨[], .of_plain (by simp) (by simp)
        (by simp [Moment.expired?, hc, waiting, loop, Loop.isFinished, ended])
        (by simp [Moment.superseded?, hc, waiting])
        (by simp [map_deployment_leftSelf, Orchestrator.setCaller])⟩
  | expires k since deadline starter waiting l loop running =>
      refine ⟨[expiry since l.deployment s], by simp, ?_, ?_, ?_⟩
      · simp [Moment.expired?, hc, waiting, loop, running, expiry, Event.isTimedOut]
      · simp [Moment.superseded?, hc, waiting, expiry, Event.isSuperseded]
      · simp [map_deployment_leftSelf, Orchestrator.setCaller, expiry, Event.started?]

theorem told_of_perform (h : s.perform a = some u) : ∃ told, Tells s u a told := by
  by_cases hcaller : ∃ n, a = .step (.caller n)
  · obtain ⟨n, rfl⟩ := hcaller
    exact told_of_stepCaller h
  · have loops := deployments_of_perform h fun n hn => absurd ⟨n, hn⟩ hcaller
    have unexpired : Moment.expired? ⟨s, a⟩ = none := by
      unfold Moment.expired?
      split
      · rename_i n haction
        exact absurd ⟨n, haction⟩ hcaller
      · rfl
    have lasting : Moment.superseded? ⟨s, a⟩ = none := by
      unfold Moment.superseded?
      split
      · rename_i n haction
        exact absurd ⟨n, haction⟩ hcaller
      · rfl
    have silent (events : u.world.events = s.world.events) : ∃ told, Tells s u a told :=
      ⟨[], .of_plain (by simp [events]) (by simp) unexpired lasting loops⟩
    cases deed_of_perform h with
    | transaction n hstep =>
        obtain ⟨t, site, stage, -, hstep', -, -, -, -, -, events⟩ := stepTransaction_cases hstep
        obtain ⟨hkeeps, -⟩ := Transaction.advances_of_step hstep'
        exact silent (events.trans hkeeps.events)
    | loop n hstep => exact told_of_stepLoop hstep
    | caller n => exact absurd ⟨n, rfl⟩ hcaller
    | watch n hstep =>
        obtain ⟨site, monitor, heals, hkeeps, -, -, -, -, -, events, -⟩ := stepWatch_cases hstep
        obtain ⟨told, htold, hheals⟩ := hkeeps.events
        refine ⟨told, .of_plain (events.trans htold) ?_ unexpired lasting loops⟩
        intro e he
        split at hheals
        · obtain ⟨inst, rfl⟩ := hheals
          rw [List.mem_singleton.mp he]
          exact ⟨rfl, rfl, rfl⟩
        · rw [hheals] at he
          cases he
    | passes => exact silent rfl
    | calls => exact silent rfl
    | abandons => exact silent (by simp)
    | shuts => exact silent (by simp)
    | releases => exact silent (by simp)
    | sets _ _ _ _ _ _ events => exact silent events

/-- Over a whole run, every loop has one event that tells its start, and every caller that gives up
has one that tells so; there are no others of these kinds. -/
theorem told_of_trace {t : State} {h : List Moment} (hs : s.IsStart) (ht : Trace s h t) :
    ∃ told, t.world.events = s.world.events ++ told ∧
      told.filterMap Event.started? = t.self.loops.map (·.deployment) ∧
      told.filter Event.isTimedOut = (h.reverse.filterMap Moment.expired?).map (·.2) := by
  induction ht with
  | start => exact ⟨[], by simp, by simp [hs.loops_eq_nil], rfl⟩
  | @step h t u a ht hp ih =>
      obtain ⟨told, hevents, hstarted, hexpired⟩ := ih
      obtain ⟨more, hmore⟩ := told_of_perform hp
      refine ⟨told ++ more, ?_, ?_, ?_⟩
      · rw [hmore.events, hevents, List.append_assoc]
      · rw [List.filterMap_append, hstarted, hmore.started]
      · rw [List.filter_append, hexpired, hmore.expired, List.reverse_cons, List.filterMap_append,
          List.map_append]
        cases he : Moment.expired? ⟨t, a⟩ <;> simp [he]

end State

end PreviewDeploy
