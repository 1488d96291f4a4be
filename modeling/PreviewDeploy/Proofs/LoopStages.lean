import PreviewDeploy.Proofs.Supersession

/-!
# The stages of a loop

A loop tries attempts until one succeeds; then it runs the setup commands, if there are any, and
completes its deployment.  Here is said how a loop gets from one stage to the next
(`State.Proceeds`), and what an action can do to a loop (`State.fares_of_perform`).

A loop that ends without an outcome was cancelled, and a loop that is cancelled was superseded or
belongs to an orchestrator that is closed (`State.superseded_of_cancelled`).
-/

namespace PreviewDeploy

namespace Loop

/-- An attempt of the loop has succeeded. -/
def hasSucceeded (l : Loop) : Bool :=
  match l.stage with
  | .settingUp .. | .finished (some _) => true
  | _ => false

/-- The loop tries attempts, or waits for the next one. -/
def isTrying (l : Loop) : Bool :=
  match l.stage with
  | .ready _ | .attempting .. | .backingOff .. => true
  | _ => false

/-- A loop ends with an outcome exactly if it has succeeded. -/
theorem outcome_of_isFinished {l : Loop} (hend : l.isFinished = true) :
    (l.stage = .finished none ∧ l.hasSucceeded = false) ∨
      ((∃ outcome, l.stage = .finished (some outcome)) ∧ l.hasSucceeded = true) := by
  obtain ⟨outcome, hstage⟩ := isFinished_iff.mp hend
  cases outcome with
  | none => exact .inl ⟨hstage, by simp [hasSucceeded, hstage]⟩
  | some o => exact .inr ⟨⟨o, hstage⟩, by simp [hasSucceeded, hstage]⟩

end Loop

/-- The instance of a deployment that an event tells to be completed. -/
def Event.completed? : Event → Option Instance
  | completed _ _ inst .. => some inst
  | _ => none

namespace Moment

/-- The loop whose attempt succeeds at a moment, and what the attempt has come to. -/
def success? (e : Moment) : Option (Nat × Execution) :=
  match e.action with
  | .step (.loop n) =>
    match e.state.self.loops[n]?.map Loop.stage with
    | some (.attempting _ _ k deadline) =>
      match e.state.attemptResult? k deadline with
      | some (.ok x) => some (n, x)
      | _ => none
    | _ => none
  | _ => none

/-- The loop whose deployment is completed at a moment, and what its attempt had come to: there
are no setup commands, or they have ended. -/
def completed? (e : Moment) : Option (Nat × Execution) :=
  match e.action with
  | .step (.loop n) =>
    match e.state.self.loops[n]?.map Loop.stage with
    | some (.attempting ..) => if e.state.self.setup = [] then e.success? else none
    | some (.settingUp _ x reply) => if reply.due ≤ e.state.world.now then some (n, x) else none
    | _ => none
  | _ => none

theorem success?_of_other {e : Moment} (other : ∀ n, e.action ≠ .step (.loop n)) :
    e.success? = none := by
  unfold success?
  split
  · rename_i n haction
    exact absurd haction (other n)
  · rfl

theorem completed?_of_other {e : Moment} (other : ∀ n, e.action ≠ .step (.loop n)) :
    e.completed? = none := by
  unfold completed?
  split
  · rename_i n haction
    exact absurd haction (other n)
  · rfl

theorem success?_eq_some {e : Moment} {n : Nat} {x : Execution} :
    e.success? = some (n, x) ↔ ∃ l attempt session k deadline, e.action = .step (.loop n) ∧
      e.state.self.loops[n]? = some l ∧ l.stage = .attempting attempt session k deadline ∧
      e.state.attemptResult? k deadline = some (.ok x) := by
  constructor
  · intro h
    unfold success? at h
    split at h
    · rename_i m haction
      split at h
      · rename_i attempt session k deadline hstage
        obtain ⟨l, hl, hs⟩ := Option.map_eq_some_iff.mp hstage
        split at h
        · rename_i y hy
          obtain ⟨rfl, rfl⟩ := Prod.mk.inj (Option.some.inj h)
          exact ⟨l, attempt, session, k, deadline, haction, hl, hs, hy⟩
        · cases h
      · cases h
    · cases h
  · rintro ⟨l, attempt, session, k, deadline, haction, hl, hs, hx⟩
    simp [success?, haction, hl, hs, hx]

theorem completed?_eq_some {e : Moment} {n : Nat} {x : Execution} :
    e.completed? = some (n, x) ↔ (e.success? = some (n, x) ∧ e.state.self.setup = []) ∨
      ∃ l attempt reply, e.action = .step (.loop n) ∧ e.state.self.loops[n]? = some l ∧
        l.stage = .settingUp attempt x reply ∧ reply.due ≤ e.state.world.now := by
  constructor
  · intro h
    unfold completed? at h
    split at h
    · rename_i m haction
      split at h
      · obtain ⟨hset, hsuccess⟩ := Option.ite_none_right_eq_some.mp h
        exact .inl ⟨hsuccess, hset⟩
      · rename_i attempt y reply hstage
        obtain ⟨l, hl, hs⟩ := Option.map_eq_some_iff.mp hstage
        simp only [Option.ite_none_right_eq_some, Option.some.injEq, Prod.mk.injEq] at h
        obtain ⟨late, rfl, rfl⟩ := h
        exact .inr ⟨l, attempt, reply, haction, hl, hs, late⟩
      · cases h
    · cases h
  · rintro (⟨hsuccess, hset⟩ | ⟨l, attempt, reply, haction, hl, hs, late⟩)
    · obtain ⟨l, attempt, session, k, deadline, haction, hl, hs, hx⟩ :=
        success?_eq_some.mp hsuccess
      simp [completed?, haction, hl, hs, hset, hsuccess]
    · simp [completed?, haction, hl, hs, late]

end Moment

namespace State

variable {s t u : State} {a : Action} {h later earlier : List Moment} {e : Moment} {m n : Nat}
  {l l' : Loop} {x : Execution}

/-! ### One loop -/

/-- How the n-th loop goes on, by the stage that this leads to. -/
inductive Proceeds (s : State) (n : Nat) (l : Loop) : LoopStage → Prop
  | stops (cancelled : l.cancelled = true) (trying : l.isTrying = true) :
      Proceeds s n l (.finished none)
  | begins (attempt : UInt32) (session : SessionId) (k deadline : Nat)
      (ready : l.stage = .ready attempt) (going : l.cancelled = false) :
      Proceeds s n l (.attempting attempt session k deadline)
  | fails (attempt : UInt32) (session : SessionId) (k deadline due : Nat)
      (attempting : l.stage = .attempting attempt session k deadline)
      (unsuccessful : Moment.success? ⟨s, .step (.loop n)⟩ = none) :
      Proceeds s n l (.backingOff attempt due)
  | retries (attempt : UInt32) (due : Nat) (waiting : l.stage = .backingOff attempt due) :
      Proceeds s n l (.ready (attempt + 1))
  /-- An attempt succeeds, and there are no setup commands. -/
  | succeeds (x : Execution) (success : Moment.success? ⟨s, .step (.loop n)⟩ = some (n, x))
      (direct : s.self.setup = []) : Proceeds s n l (.finished (some x.inst.outcome))
  | setsUp (x : Execution) (success : Moment.success? ⟨s, .step (.loop n)⟩ = some (n, x))
      (setup : s.self.setup ≠ []) (attempt : UInt32)
      (reply : Pending ControlPlane.CommandsResponse) :
      Proceeds s n l (.settingUp attempt x reply)
  /-- The setup commands have ended. -/
  | completes (attempt : UInt32) (x : Execution) (reply : Pending ControlPlane.CommandsResponse)
      (settingUp : l.stage = .settingUp attempt x reply) (late : reply.due ≤ s.world.now) :
      Proceeds s n l (.finished (some x.inst.outcome))

theorem proceeds_of_stepLoop (hp : s.stepLoop n = some u) :
    ∃ l stage, s.self.loops[n]? = some l ∧ Proceeds s n l stage ∧
      u.self.loops = (s.self.setLoop n stage).loops := by
  obtain ⟨l, hl, hstep⟩ := stepLoop_cases hp
  refine ⟨l, ?_⟩
  cases hstep with
  | stops cancelled idle =>
      have trying : l.isTrying = true := by
        obtain ⟨attempt, hs⟩ | ⟨attempt, due, hs⟩ := idle
        · simp [Loop.isTrying, hs]
        · simp [Loop.isTrying, hs]
      exact ⟨.finished none, hl, .stops cancelled trying, by simp [Orchestrator.setLoop]⟩
  | begins attempt ready going =>
      have hself := (beginAttempt_frame s going n attempt).1
      exact ⟨_, hl, .begins attempt _ _ _ ready going, by rw [hself]; rfl⟩
  | succeeds attempt session k deadline attempting x result =>
      have success : Moment.success? ⟨s, .step (.loop n)⟩ = some (n, x) :=
        Moment.success?_eq_some.mpr ⟨l, attempt, session, k, deadline, rfl, hl, attempting, result⟩
      by_cases hset : s.self.setup = []
      · have hself := (succeed_of_nil s hset n l attempt x).1
        exact ⟨_, hl, .succeeds x success hset, by simp [hself, Orchestrator.setLoop]⟩
      · obtain ⟨⟨reply, hself⟩, -⟩ := succeed_of_ne_nil s hset n l attempt x
        exact ⟨_, hl, .setsUp x success hset attempt reply, by simp [hself, Orchestrator.setLoop]⟩
  | fails attempt session k deadline attempting f result =>
      have unsuccessful : Moment.success? ⟨s, .step (.loop n)⟩ = none := by
        simp [Moment.success?, hl, attempting, result]
      exact ⟨_, hl, .fails attempt session k deadline _ attempting unsuccessful, by simp; rfl⟩
  | retries attempt due waiting => exact ⟨_, hl, .retries attempt due waiting, by simp⟩
  | completes attempt x reply settingUp late =>
      exact ⟨_, hl, .completes attempt x reply settingUp late, by simp [Orchestrator.setLoop]⟩

/-! ### Any action -/

/-- What an action does to the `m`-th of the loops that there are after it. -/
inductive Fares (s : State) (m : Nat) (a : Action) (l' : Loop) : Prop
  | proceeds (l : Loop) (here : s.self.loops[m]? = some l) (acts : a = .step (.loop m))
      (stage : Proceeds s m l l'.stage) (cancelled : l'.cancelled = l.cancelled)
  | starts (new : m = s.self.loops.length) (ready : l'.stage = .ready 1)
      (going : l'.cancelled = false)
  | stays (l : Loop) (here : s.self.loops[m]? = some l) (other : a ≠ .step (.loop m))
      (stage : l'.stage = l.stage) (cancelled : l.cancelled = true → l'.cancelled = true)

theorem fares_of_perform (hp : s.perform a = some u) (hl' : u.self.loops[m]? = some l') :
    Fares s m a l' := by
  by_cases ha : a = .step (.loop m)
  · subst ha
    obtain ⟨l, stage, hl, hproceeds, hloops⟩ := proceeds_of_stepLoop hp
    rw [hloops] at hl'
    rcases getElem?_setLoop hl hl' with ⟨-, rfl⟩ | ⟨hne, -⟩
    · exact .proceeds l hl rfl hproceeds rfl
    · exact absurd rfl hne
  · cases looping_of_perform hp with
    | moves n l stage here step loops =>
        rw [loops] at hl'
        rcases getElem?_setLoop here hl' with ⟨rfl, -⟩ | ⟨-, hl'⟩
        · exact absurd rfl ha
        · exact .stays l' hl' ha rfl id
    | starts n c here entering going free loops =>
        rw [loops] at hl'
        rcases of_getElem?_concat hl' with hl' | ⟨hnew, rfl⟩
        · obtain ⟨⟨l, hl, hstays⟩, -⟩ := of_mem_loopsAfter hl'
          exact .stays l hl ha hstays.stage hstays.cancelled
        · rw [length_loopsAfter] at hnew
          exact .starts hnew rfl rfl
    | closes loops =>
        obtain ⟨l, hl, rfl⟩ := getElem?_cancelled (loops ▸ hl')
        exact .stays l hl ha rfl fun _ => rfl
    | stays loops => exact .stays l' (loops ▸ hl') ha rfl id

/-! ### Closing -/

/-- A loop that goes on leaves the monitor as it is, or arms it after a success. -/
theorem monitor_of_stepLoop (hp : s.stepLoop n = some u) :
    u.self.healer = s.self.healer ∧
      ((u.self.monitor = s.self.monitor ∧ Moment.success? ⟨s, .step (.loop n)⟩ = none) ∨
        ∃ x, Moment.success? ⟨s, .step (.loop n)⟩ = some (n, x) ∧
          u.self.monitor = (armedSelf x s.world.now s.self).monitor) := by
  obtain ⟨l, hl, hstep⟩ := stepLoop_cases hp
  cases hstep with
  | stops cancelled idle =>
      refine ⟨by simp [Orchestrator.setLoop], .inl ⟨by simp [Orchestrator.setLoop], ?_⟩⟩
      obtain ⟨attempt, hs⟩ | ⟨attempt, due, hs⟩ := idle
      · simp [Moment.success?, hl, hs]
      · simp [Moment.success?, hl, hs]
  | begins attempt ready going =>
      have hself := (beginAttempt_frame s going n attempt).1
      exact ⟨by rw [hself]; rfl, .inl ⟨by rw [hself]; rfl, by simp [Moment.success?, hl, ready]⟩⟩
  | succeeds attempt session k deadline attempting x result =>
      have success : Moment.success? ⟨s, .step (.loop n)⟩ = some (n, x) :=
        Moment.success?_eq_some.mpr ⟨l, attempt, session, k, deadline, rfl, hl, attempting, result⟩
      by_cases hset : s.self.setup = []
      · have hself := (succeed_of_nil s hset n l attempt x).1
        exact ⟨by simp [hself, Orchestrator.setLoop], .inr ⟨x, success, by rw [hself]; rfl⟩⟩
      · obtain ⟨⟨reply, hself⟩, -⟩ := succeed_of_ne_nil s hset n l attempt x
        exact ⟨by simp [hself, Orchestrator.setLoop], .inr ⟨x, success, by rw [hself]; rfl⟩⟩
  | fails attempt session k deadline attempting f result =>
      exact ⟨by simp [Orchestrator.setLoop], .inl ⟨by simp [Orchestrator.setLoop],
        by simp [Moment.success?, hl, attempting, result]⟩⟩
  | retries attempt due waiting =>
      exact ⟨by simp [Orchestrator.setLoop], .inl ⟨by simp [Orchestrator.setLoop],
        by simp [Moment.success?, hl, waiting]⟩⟩
  | completes attempt x reply settingUp =>
      exact ⟨by simp [Orchestrator.setLoop], .inl ⟨by simp [Orchestrator.setLoop],
        by simp [Moment.success?, hl, settingUp]⟩⟩

@[simp] theorem armedSelf_isClosed (x : Execution) (now : Nat) (o : Orchestrator) :
    (armedSelf x now o).isClosed = o.isClosed := by
  unfold armedSelf Orchestrator.isClosed
  split <;> simp

/-- An orchestrator is closed or open as another one was, or it is closed by now with all its loops
cancelled. -/
def Closing (o o' : Orchestrator) : Prop :=
  o'.isClosed = o.isClosed ∨ o'.isClosed = true ∧ ∀ l ∈ o'.loops, l.cancelled = true

theorem Closing.of_monitor {o o' : Orchestrator} (h : o'.monitor = o.monitor) : Closing o o' :=
  .inl (congrArg Monitor.closed h)

theorem Closing.of_map {o o' : Orchestrator} {loops : List Loop} (closed : o'.isClosed = true)
    (hloops : o'.loops = loops.map fun l => { l with cancelled := true }) : Closing o o' := by
  refine .inr ⟨closed, fun l hl => ?_⟩
  obtain ⟨x, -, rfl⟩ := List.mem_map.mp (hloops ▸ hl)
  rfl

theorem Closing.of_leftSelf {o o' : Orchestrator} (h : o'.monitor = o.monitor) :
    Closing o (leftSelf o') := by
  unfold leftSelf
  split
  · exact .of_map rfl rfl
  · exact .of_monitor h

/-- An orchestrator that is closed by an action has all its loops cancelled by it. -/
theorem closing_of_perform (hp : s.perform a = some u) : Closing s.self u.self := by
  cases deed_of_perform hp with
  | transaction n hstep =>
      obtain ⟨x, site, stage, -, -, hself, -⟩ := stepTransaction_cases hstep
      exact .of_monitor (by simp [hself, advanceSelf, Orchestrator.setTransaction])
  | loop n hstep =>
      obtain ⟨-, ⟨hmonitor, -⟩ | ⟨x, -, hmonitor⟩⟩ := monitor_of_stepLoop hstep
      · exact .of_monitor hmonitor
      · exact .inl ((congrArg Monitor.closed hmonitor).trans
          (armedSelf_isClosed x s.world.now s.self))
  | caller n hstep =>
      obtain ⟨c, -, hs⟩ := stepCaller_cases hstep
      cases hs with
      | refused =>
          rw [(answer_frame s n c none).1]
          exact .of_leftSelf rfl
      | joins => exact .of_monitor (by simp [Orchestrator.setCaller])
      | starts => exact .of_monitor (by simp [Orchestrator.setCaller])
      | returns k since deadline starter waiting l loop outcome =>
          rw [(answer_frame _ n c outcome).1]
          exact .of_leftSelf (by simp [Orchestrator.setCaller])
      | expires k since deadline starter waiting l =>
          rw [(answer_frame _ n c none).1]
          exact .of_leftSelf (by simp [Orchestrator.setCaller])
  | watch n hstep =>
      obtain ⟨site, monitor, heals, hkeeps, hself, -⟩ := stepWatch_cases hstep
      have hmonitor : u.self.monitor = monitor := by
        rw [hself]
        split <;> simp
      exact .inl ((congrArg Monitor.closed hmonitor).trans hkeeps.closed)
  | passes => exact .inl rfl
  | calls => exact .inl rfl
  | abandons n =>
      rw [(abandon_frame s n).1]
      unfold abandonSelf
      split
      · exact .inl rfl
      · exact .inl rfl
      · exact .of_leftSelf rfl
      · exact .of_leftSelf rfl
  | shuts =>
      rw [(shutdown_frame s).1]
      unfold shutSelf
      split
      · exact .inl rfl
      · exact .of_map (by simp [Orchestrator.isClosed]) rfl
  | releases =>
      rw [(release_frame s).1]
      exact .of_leftSelf rfl
  | sets _ _ self =>
      obtain ⟨setup, debugging, hself⟩ := self
      exact .of_monitor (by rw [hself])

theorem isClosed_of_perform (hclosed : s.self.isClosed = true) (hp : s.perform a = some u) :
    u.self.isClosed = true := by
  rcases closing_of_perform hp with h | ⟨h, -⟩
  · exact h.trans hclosed
  · exact h

theorem isClosed_of_trace (hclosed : s.self.isClosed = true) (ht : Trace s h t) :
    t.self.isClosed = true := by
  induction ht with
  | start => exact hclosed
  | step _ hp ih => exact isClosed_of_perform ih hp

theorem isOpen_of_perform (hopen : u.self.isClosed = false) (hp : s.perform a = some u) :
    s.self.isClosed = false := by
  cases hclosed : s.self.isClosed with
  | false => rfl
  | true =>
      rw [isClosed_of_perform hclosed hp] at hopen
      cases hopen

/-! ### Loops that were cancelled -/

theorem cancelled_of_finished (hs : s.IsStart) (ht : Trace s h t)
    (hl : t.self.loops[m]? = some l) (hend : l.stage = .finished none) : l.cancelled = true := by
  induction ht generalizing l with
  | start => simp [hs.loops_eq_nil] at hl
  | step _ hp ih =>
      cases fares_of_perform hp hl with
      | proceeds y here acts stage cancelled =>
          rw [hend] at stage
          cases stage with
          | stops hcancelled => rw [cancelled, hcancelled]
      | starts new ready =>
          rw [ready] at hend
          cases hend
      | stays y here other stage cancelled => exact cancelled (ih here (stage.symm.trans hend))

/-- An action that cancels a loop supersedes its deployment, or leaves the orchestrator closed. -/
theorem cancelled_of_perform (hp : s.perform a = some u) (hl' : u.self.loops[m]? = some l')
    (hc : l'.cancelled = true) :
    (∃ l, s.self.loops[m]? = some l ∧ l.cancelled = true) ∨ u.self.isClosed = true ∨
      ∃ told, Moment.superseded? ⟨s, a⟩ = some (m, told) := by
  cases looping_of_perform hp with
  | moves n l stage here step loops =>
      rw [loops] at hl'
      rcases getElem?_setLoop here hl' with ⟨rfl, rfl⟩ | ⟨-, hl'⟩
      · exact .inl ⟨l, here, hc⟩
      · exact .inl ⟨l', hl', hc⟩
  | starts n c here entering going free loops =>
      rw [loops] at hl'
      rcases of_getElem?_concat hl' with hl' | ⟨-, rfl⟩
      · unfold loopsAfter at hl'
        cases hsup : State.superseded? s.self with
        | none =>
            rw [hsup] at hl'
            exact .inl ⟨l', hl', hc⟩
        | some x =>
            obtain ⟨k, y⟩ := x
            simp only [hsup] at hl'
            by_cases hk : k = m
            · subst hk
              obtain ⟨j, hactive, hj⟩ := Option.bind_eq_some_iff.mp hsup
              obtain ⟨y', hy, hpair⟩ := Option.map_eq_some_iff.mp hj
              obtain ⟨rfl, rfl⟩ := Prod.mk.inj hpair
              exact .inr (.inr ⟨_, Moment.superseded?_eq_some.mpr
                ⟨n, c, y', rfl, here, entering, going, free, hactive, hy, rfl⟩⟩)
            · rw [List.getElem?_modify] at hl'
              simp only [hk, if_false, Option.map_eq_map, Option.map_id'] at hl'
              exact .inl ⟨l', hl', hc⟩
      · cases hc
  | closes loops active closed => exact .inr (.inl closed)
  | stays loops => exact .inl ⟨l', loops ▸ hl', hc⟩

/-- A loop that is cancelled was superseded, unless the orchestrator is closed. -/
theorem superseded_of_cancelled (hs : s.IsStart) (ht : Trace s h t)
    (hopen : t.self.isClosed = false) (hl : t.self.loops[m]? = some l) (hc : l.cancelled = true) :
    ∃ later e earlier told, h = later ++ e :: earlier ∧ e.superseded? = some (m, told) := by
  induction ht generalizing l with
  | start => simp [hs.loops_eq_nil] at hl
  | @step h t u a ht hp ih =>
      rcases cancelled_of_perform hp hl hc with ⟨y, hy, hcancelled⟩ | hclosed | ⟨told, htold⟩
      · obtain ⟨later, e, earlier, told, rfl, htold⟩ :=
          ih (isOpen_of_perform hopen hp) hy hcancelled
        exact ⟨⟨t, a⟩ :: later, e, earlier, told, rfl, htold⟩
      · rw [hclosed] at hopen
        cases hopen
      · exact ⟨[], ⟨t, a⟩, h, told, rfl, htold⟩

theorem loops_length_le_of_trace (ht : Trace s h t) :
    s.self.loops.length ≤ t.self.loops.length := by
  induction ht with
  | start => exact Nat.le_refl _
  | step _ hp ih => exact Nat.le_trans ih (loops_length_le_of_perform hp)

theorem length_of_superseded {told : Event} (hsup : e.superseded? = some (m, told))
    (hp : e.state.perform e.action = some u) :
    u.self.loops.length = e.state.self.loops.length + 1 := by
  obtain ⟨n, c, l, haction, hc, entering, going, free, -⟩ := Moment.superseded?_eq_some.mp hsup
  rw [haction] at hp
  obtain rfl := Option.some.inj ((stepCaller_of_free hc entering going free).symm.trans hp)
  simp [Orchestrator.setCaller, length_loopsAfter]

/-- The last loop is not cancelled as long as the orchestrator is not closed. -/
theorem lt_of_cancelled (hs : s.IsStart) (ht : Trace s h t) (hopen : t.self.isClosed = false)
    (hl : t.self.loops[m]? = some l) (hc : l.cancelled = true) :
    m + 1 < t.self.loops.length := by
  obtain ⟨later, e, earlier, told, rfl, htold⟩ := superseded_of_cancelled hs ht hopen hl hc
  obtain ⟨hearlier, u, hp, hlater⟩ := ht.split
  obtain ⟨-, -, -, -, -, -, -, -, hactive, -⟩ := Moment.superseded?_eq_some.mp htold
  -- The active loop was the last one, and then another one was started.
  have hlast := (oneActive_of_trace hs hearlier).last m hactive
  have hlen := length_of_superseded htold hp
  have hle := loops_length_le_of_trace hlater
  omega

/-! ### Successes and completions -/

/-- A loop that runs setup commands has had a success before, and no step since. -/
theorem success_of_settingUp {attempt : UInt32} {reply : Pending ControlPlane.CommandsResponse}
    (hs : s.IsStart) (ht : Trace s h t) (hl : t.self.loops[m]? = some l)
    (hset : l.stage = .settingUp attempt x reply) :
    ∃ later e earlier, h = later ++ e :: earlier ∧ e.success? = some (m, x) ∧
      ∀ w ∈ later, w.action ≠ .step (.loop m) := by
  induction ht generalizing l with
  | start => simp [hs.loops_eq_nil] at hl
  | @step h t u a ht hp ih =>
      cases fares_of_perform hp hl with
      | proceeds y here acts stage =>
          subst acts
          rw [hset] at stage
          cases stage with
          | setsUp x success => exact ⟨[], ⟨t, .step (.loop m)⟩, h, rfl, success, by simp⟩
      | starts new ready =>
          rw [ready] at hset
          cases hset
      | stays y here other stage =>
          obtain ⟨later, e, earlier, rfl, hsuccess, hnone⟩ := ih here (stage.symm.trans hset)
          refine ⟨⟨t, a⟩ :: later, e, earlier, rfl, hsuccess, fun w hw => ?_⟩
          rcases List.mem_cons.mp hw with rfl | hw
          · exact other
          · exact hnone w hw

/-- What a step of a loop tells of completed deployments. -/
theorem completions_of_stepLoop (hp : s.stepLoop n = some u) :
    ∃ told, u.world.events = s.world.events ++ told ∧ told.filterMap Event.completed? =
      ((Moment.completed? ⟨s, .step (.loop n)⟩).map (·.2.inst)).toList := by
  obtain ⟨l, hl, hstep⟩ := stepLoop_cases hp
  cases hstep with
  | stops cancelled idle =>
      refine ⟨[], by simp, ?_⟩
      obtain ⟨attempt, hs⟩ | ⟨attempt, due, hs⟩ := idle
      · simp [Moment.completed?, hl, hs]
      · simp [Moment.completed?, hl, hs]
  | begins attempt ready going =>
      exact ⟨[], by simp [beginAttempt_frame s going], by simp [Moment.completed?, hl, ready]⟩
  | succeeds attempt session k deadline attempting x result =>
      have success : Moment.success? ⟨s, .step (.loop n)⟩ = some (n, x) :=
        Moment.success?_eq_some.mpr ⟨l, attempt, session, k, deadline, rfl, hl, attempting, result⟩
      by_cases hset : s.self.setup = []
      · obtain ⟨-, -, -, -, -, hevents⟩ := succeed_of_nil s hset n l attempt x
        have hcompleted := Moment.completed?_eq_some.mpr (.inl ⟨success, hset⟩)
        exact ⟨_, hevents, by rw [hcompleted]; rfl⟩
      · obtain ⟨-, -, -, -, -, hevents⟩ := succeed_of_ne_nil s hset n l attempt x
        exact ⟨[], by simp [hevents], by simp [Moment.completed?, hl, attempting, hset]⟩
  | fails attempt session k deadline attempting f result =>
      have unsuccessful : Moment.success? ⟨s, .step (.loop n)⟩ = none := by
        simp [Moment.success?, hl, attempting, result]
      refine ⟨failureEvents l attempt session f s, by simp, ?_⟩
      have hnone : Moment.completed? ⟨s, .step (.loop n)⟩ = none := by
        simp [Moment.completed?, hl, attempting, unsuccessful]
      rw [hnone]
      unfold failureEvents
      split <;> rfl
  | retries attempt due waiting =>
      exact ⟨[], by simp, by simp [Moment.completed?, hl, waiting]⟩
  | completes attempt x reply settingUp late =>
      have hcompleted : Moment.completed? ⟨s, .step (.loop n)⟩ = some (n, x) :=
        Moment.completed?_eq_some.mpr (.inr ⟨l, attempt, reply, rfl, hl, settingUp, late⟩)
      refine ⟨[completion l attempt x s.world.now], by simp, ?_⟩
      rw [hcompleted]
      rfl

/-- A deployment is told to be completed exactly when a loop completes it. -/
theorem completions_of_perform (hp : s.perform a = some u) :
    ∃ told, u.world.events = s.world.events ++ told ∧ told.filterMap Event.completed? =
      ((Moment.completed? ⟨s, a⟩).map (·.2.inst)).toList := by
  by_cases hloop : ∃ n, a = .step (.loop n)
  · obtain ⟨n, rfl⟩ := hloop
    exact completions_of_stepLoop hp
  · have hnone : Moment.completed? ⟨s, a⟩ = none :=
      Moment.completed?_of_other fun n hn => hloop ⟨n, hn⟩
    rw [hnone]
    have silent (hevents : u.world.events = s.world.events) :
        ∃ told, u.world.events = s.world.events ++ told ∧
          told.filterMap Event.completed? = [] :=
      ⟨[], by simp [hevents], rfl⟩
    cases deed_of_perform hp with
    | transaction n hstep =>
        obtain ⟨y, site, stage, -, hstep', -, -, -, -, -, hevents⟩ := stepTransaction_cases hstep
        exact silent (hevents.trans (Transaction.advances_of_step hstep').1.events)
    | loop n => exact absurd ⟨n, rfl⟩ hloop
    | caller n hstep =>
        obtain ⟨c, -, hs⟩ := stepCaller_cases hstep
        cases hs with
        | refused => exact silent (by simp)
        | joins => exact silent (by simp)
        | starts =>
            refine ⟨startEvents c.request s, by simp, ?_⟩
            unfold startEvents supersession
            split <;> rfl
        | returns => exact silent (by simp)
        | expires k since deadline starter waiting l =>
            exact ⟨[expiry since l.deployment s], by simp, rfl⟩
    | watch n hstep =>
        obtain ⟨site, monitor, heals, hkeeps, -, -, -, -, -, hevents, -⟩ := stepWatch_cases hstep
        obtain ⟨told, htold, hheals⟩ := hkeeps.events
        refine ⟨told, hevents.trans htold, ?_⟩
        cases heals with
        | true =>
            obtain ⟨inst, rfl⟩ := hheals
            rfl
        | false =>
            obtain rfl : told = [] := hheals
            rfl
    | passes => exact silent rfl
    | calls => exact silent rfl
    | abandons => exact silent (by simp)
    | shuts => exact silent (by simp)
    | releases => exact silent (by simp)
    | sets _ _ _ _ _ _ hevents => exact silent hevents

end State

end PreviewDeploy
