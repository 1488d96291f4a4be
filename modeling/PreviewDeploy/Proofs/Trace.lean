import PreviewDeploy.Proofs.StepCases

/-!
# Traces of an orchestrator

A trace is a run together with its history: the state before each action, and the action, the last
one first (`Trace`).  Every run has a trace (`trace_of_follow`), so what is proved of all
traces from a start holds of all runs.  A moment of a history splits the trace into what led to it
and what followed from it.
-/

namespace PreviewDeploy

/-- An action and the state in which it happens. -/
structure Moment where
  state : State
  action : Action

/-- The actions of a history lead from `s` to a state. -/
inductive Trace (s : State) : List Moment → State → Prop
  | start : Trace s [] s
  | step {h : List Moment} {t u : State} {a : Action} :
      Trace s h t → t.perform a = some u → Trace s (⟨t, a⟩ :: h) u

namespace Trace

variable {s t u : State} {h later earlier : List Moment} {e : Moment}

theorem append {k : List Moment} (hs : Trace s h t) (ht : Trace t k u) : Trace s (k ++ h) u := by
  induction ht with
  | start => exact hs
  | step _ hp ih => exact ih.step hp

/-- The last moment of a trace, and what led to it. -/
theorem last (ht : Trace s (e :: h) t) : Trace s h e.state ∧ e.state.perform e.action = some t := by
  cases ht with
  | step hs hp => exact ⟨hs, hp⟩

/-- What led to a moment, and what followed from it. -/
theorem split (ht : Trace s (later ++ e :: earlier) t) :
    Trace s earlier e.state ∧ ∃ u, e.state.perform e.action = some u ∧ Trace u later t := by
  induction later generalizing t with
  | nil =>
      cases ht with
      | step hs hp => exact ⟨hs, _, hp, .start⟩
  | cons m later ih =>
      cases ht with
      | step hs hp =>
          obtain ⟨he, u, hu, hl⟩ := ih hs
          exact ⟨he, u, hu, hl.step hp⟩

theorem split_of_mem (ht : Trace s h t) (he : e ∈ h) :
    ∃ later earlier, h = later ++ e :: earlier ∧ Trace s earlier e.state ∧
      ∃ u, e.state.perform e.action = some u ∧ Trace u later t := by
  obtain ⟨later, earlier, rfl⟩ := List.append_of_mem he
  exact ⟨later, earlier, rfl, ht.split⟩

theorem follow (ht : Trace s h t) : s.follow (h.reverse.map (·.action)) = some t := by
  have snoc (as : List Action) (a : Action) (s : State) :
      s.follow (as ++ [a]) = (s.follow as).bind fun t => t.perform a := by
    induction as generalizing s with
    | nil => simp [State.follow]
    | cons b as ih =>
        simp only [List.cons_append, State.follow]
        cases s.perform b with
        | none => rfl
        | some u => simpa using ih u
  induction ht with
  | start => rfl
  | step _ hp ih =>
      rw [List.reverse_cons, List.map_append, List.map_cons, List.map_nil, snoc, ih]
      exact hp

end Trace

/-- The history of a run, as far as its actions are possible. -/
def State.history : List Action → State → List Moment
  | [], _ => []
  | a :: rest, s =>
    match s.perform a with
    | some t => t.history rest ++ [⟨s, a⟩]
    | none => []

theorem trace_of_follow {actions : List Action} {s t : State} (h : s.follow actions = some t) :
    Trace s (s.history actions) t := by
  induction actions generalizing s with
  | nil =>
      cases h
      exact .start
  | cons a actions ih =>
      obtain ⟨u, hu, ht⟩ := Option.bind_eq_some_iff.mp h
      rw [State.history, hu]
      exact (Trace.start.step hu).append (ih ht)

/-- A run of which something is computed has a trace to a state of which it is true. -/
theorem trace_of_map {α : Type} {f : State → α} {v : α} {actions : List Action} {s : State}
    (h : (s.follow actions).map f = some v) : ∃ t, Trace s (s.history actions) t ∧ f t = v := by
  obtain ⟨t, ht, hv⟩ := Option.map_eq_some_iff.mp h
  exact ⟨t, trace_of_follow ht, hv⟩

namespace State

/-- The state of an orchestrator that was just made. -/
def IsStart (s : State) : Prop :=
  ∃ number project config blueprint setup w,
    s = start number project config blueprint setup w

/-- An orchestrator at its start, in a project without files. -/
def bare : State := .start 0 none {} {} [] {}

theorem isStart_bare : bare.IsStart := ⟨0, none, {}, {}, [], {}, rfl⟩

/-- An orchestrator at its start, in a project of a page and a program. -/
def furnished : State :=
  .start 0 none {} {} []
    { project := .ofTemplate [⟨"index.html", "x"⟩, ⟨"src/App.tsx", "v1"⟩] }

theorem isStart_furnished : furnished.IsStart := ⟨0, none, {}, {}, [], _, rfl⟩

/-- A request for a new program. -/
def oneFile : Request := { files := [⟨"src/App.tsx", "v2"⟩] }

theorem IsStart.eq_withConfig {s : State} (h : s.IsStart) :
    ∃ number config blueprint setup, s.self = .withConfig number config blueprint setup := by
  obtain ⟨number, project, config, blueprint, setup, w, rfl⟩ := h
  exact ⟨number, config, blueprint, setup, rfl⟩

variable {s u : State} {a : Action}

theorem IsStart.loops_eq_nil (h : s.IsStart) : s.self.loops = [] := by
  obtain ⟨number, config, blueprint, setup, hself⟩ := h.eq_withConfig
  rw [hself]
  rfl

theorem IsStart.transactions_eq_nil (h : s.IsStart) : s.self.transactions = [] := by
  obtain ⟨number, config, blueprint, setup, hself⟩ := h.eq_withConfig
  rw [hself]
  rfl

/-! ### What an action does to the transactions -/

/-- The transactions advance by one step of one of them, get a new one at the end, or stay as
they are; in the latter cases the known instance stays or is forgotten. -/
inductive Traffic (s u : State) : Action → Prop
  | advances (n : Nat) (t : Transaction) (stage : TransactionStage)
      (here : s.self.transactions[n]? = some t)
      (keeps : Transaction.Keeps n s.toSite u.toSite)
      (advances : Transaction.Advances s.self.blueprint t s.toSite u.identity.inst stage)
      (first : t.stage = .queued → s.self.line.head? = some n)
      (self : u.self = advanceSelf n stage s.self) : Traffic s u (.step (.transaction n))
  | enqueues (n : Nat) (l : Loop) (attempt : UInt32) (here : s.self.loops[n]? = some l)
      (ready : l.stage = .ready attempt) (going : l.cancelled = false)
      (transactions : u.self.transactions = s.self.transactions ++ [{ request := l.request }])
      (line : u.self.line = s.self.line ++ [s.self.transactions.length])
      (inst : u.identity.inst = s.identity.inst) (calls : u.world.calls = s.world.calls) :
      Traffic s u (.step (.loop n))
  | stays {a : Action} (other : ∀ n, a ≠ .step (.transaction n))
      (transactions : u.self.transactions = s.self.transactions)
      (line : u.self.line = s.self.line)
      (inst : u.identity.inst = s.identity.inst ∨ u.identity.inst = none)
      (calls : ∃ made, u.world.calls = s.world.calls ++ made ∧
        ∀ c ∈ made, ∀ k, c.1 ≠ .transaction k) : Traffic s u a

theorem traffic_of_stepTransaction {n : Nat} (h : s.stepTransaction n = some u) :
    Traffic s u (.step (.transaction n)) := by
  obtain ⟨t, site, stage, ht, hstep, hself, hid, hnow, hproject, hcalls, hevents⟩ :=
    stepTransaction_cases h
  obtain ⟨hk, ha, hf⟩ := Transaction.advances_of_step hstep
  refine .advances n t stage ht ⟨?_, ?_, ?_, ?_, ?_⟩ (by rw [hid]; exact ha)
    (fun hq => by simpa using hf hq) hself
  · exact hnow.trans hk.now
  · exact hproject.trans hk.project
  · exact hevents.trans hk.events
  · simpa only [hcalls] using hk.calls
  · exact (congrArg Identity.session hid).trans hk.session

theorem Traffic.of_silent (other : ∀ n, a ≠ .step (.transaction n))
    (self : u.self.transactions = s.self.transactions ∧ u.self.line = s.self.line)
    (inst : u.identity.inst = s.identity.inst ∨ u.identity.inst = none)
    (calls : u.world.calls = s.world.calls) : Traffic s u a :=
  .stays other self.1 self.2 inst ⟨[], by simp [calls]⟩

theorem traffic_of_stepLoop {n : Nat} (h : s.stepLoop n = some u) :
    Traffic s u (.step (.loop n)) := by
  obtain ⟨l, hl, hs⟩ := stepLoop_cases h
  cases hs with
  | stops => exact .of_silent (by simp) (by simp [Orchestrator.setLoop]) (by simp) (by simp)
  | begins attempt ready going =>
      have hb := s.beginAttempt_frame going n attempt
      exact .enqueues n l attempt hl ready going (by simp [hb, attemptSelf])
        (by simp [hb, attemptSelf]) (by simp [hb]) (by simp [hb])
  | succeeds attempt session k deadline attempting e result =>
      by_cases hset : s.self.setup = []
      · obtain ⟨hself, hid, -, -, hcalls, -⟩ := succeed_of_nil s hset n l attempt e
        exact .of_silent (by simp) (by simp [hself, Orchestrator.setLoop]) (by simp [hid]) hcalls
      · obtain ⟨⟨reply, hself⟩, hid, -, -, hcalls, -⟩ := succeed_of_ne_nil s hset n l attempt e
        exact .stays (by simp) (by simp [hself, Orchestrator.setLoop])
          (by simp [hself, Orchestrator.setLoop]) (by simp [hid]) ⟨_, hcalls, by simp⟩
  | fails attempt session k deadline attempting f result =>
      refine .of_silent (by simp) (by simp [Orchestrator.setLoop]) ?_ (by simp)
      simp only [failAttempt_frame, identityAfter]
      split <;> simp
  | retries => exact .of_silent (by simp) (by simp [Orchestrator.setLoop]) (by simp) (by simp)
  | completes => exact .of_silent (by simp) (by simp [Orchestrator.setLoop]) (by simp) (by simp)

theorem traffic_of_stepCaller {n : Nat} (h : s.stepCaller n = some u) :
    Traffic s u (.step (.caller n)) := by
  obtain ⟨c, hc, hs⟩ := stepCaller_cases h
  cases hs with
  | refused => exact .of_silent (by simp) (by simp [Orchestrator.setCaller]) (by simp) (by simp)
  | joins => exact .of_silent (by simp) (by simp [Orchestrator.setCaller]) (by simp) (by simp)
  | starts => exact .of_silent (by simp) (by simp [Orchestrator.setCaller]) (by simp) (by simp)
  | returns => exact .of_silent (by simp) (by simp [Orchestrator.setCaller]) (by simp) (by simp)
  | expires => exact .of_silent (by simp) (by simp [Orchestrator.setCaller]) (by simp) (by simp)

theorem traffic_of_stepWatch {n : Nat} (h : s.stepWatch n = some u) :
    Traffic s u (.step (.watch n)) := by
  obtain ⟨site, monitor, heals, hk, hself, hid, -, -, hcalls, -⟩ := stepWatch_cases h
  obtain ⟨made, hmade, hown⟩ := hk.calls
  refine .stays (by simp) ?_ ?_ (.inl ?_) ⟨made, hcalls.trans hmade, ?_⟩
  · rw [hself]; split <;> simp
  · rw [hself]; split <;> simp
  · rw [hid]; exact hk.inst
  · intro c hc k
    rw [hown c hc]
    simp

/-- Whatever is done, the transactions fare in one of three ways. -/
theorem traffic_of_perform (h : s.perform a = some u) : Traffic s u a := by
  cases deed_of_perform h with
  | transaction n hstep => exact traffic_of_stepTransaction hstep
  | loop n hstep => exact traffic_of_stepLoop hstep
  | caller n hstep => exact traffic_of_stepCaller hstep
  | watch n hstep => exact traffic_of_stepWatch hstep
  | passes => exact .of_silent (by simp) (by simp) (by simp) rfl
  | calls => exact .of_silent (by simp) (by simp) (by simp) (by simp)
  | abandons => exact .of_silent (by simp) (by simp) (by simp) (by simp)
  | shuts => exact .of_silent (by simp) (by simp) (by simp) (by simp)
  | releases => exact .of_silent (by simp) (by simp) (by simp) (by simp)
  | sets other _ self identity _ calls =>
      obtain ⟨setup, debugging, hself⟩ := self
      exact .of_silent (fun n => other (.transaction n)) (by rw [hself]; exact ⟨rfl, rfl⟩)
        (.inl (by rw [identity])) calls

end State

end PreviewDeploy
