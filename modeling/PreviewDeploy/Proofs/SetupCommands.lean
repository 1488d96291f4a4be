import PreviewDeploy.Proofs.Narratives
import PreviewDeploy.Proofs.OneClient

/-!
# Setup commands

Commands are queued from outside at any time, and a loop whose attempt has succeeded takes all that
wait and sends them.  Several loops can succeed around the same time, since a superseded one still
ends its attempt.  As a list is taken and sent in a single step, nothing is lost, sent twice or put
in another order: what was sent and what still waits are together the first commands and all that
were queued (`State.conserved_of_trace`).  Where another loop can take and send a list between the
two, lists can be sent in another order than they were queued in.
-/

namespace PreviewDeploy

/-- The setup commands that a call sends. -/
def commandsOf? : Call → Option (List String)
  | (_, _, .commands _ commands) => some commands
  | _ => none

/-- The lists of setup commands that calls send, in the order of the calls. -/
def sent (calls : List Call) : List (List String) := calls.filterMap commandsOf?

@[simp] theorem sent_append (xs ys : List Call) : sent (xs ++ ys) = sent xs ++ sent ys :=
  List.filterMap_append

/-- The setup commands that an action queues. -/
def Action.queued : Action → List String
  | .queueSetup commands => commands
  | _ => []

/-- The setup commands that are queued in a history, in the order in which they are queued. -/
def queued : List Moment → List String
  | [] => []
  | e :: h => queued h ++ e.action.queued

/-- At a moment the `n`-th loop goes on, whose attempt has just succeeded with the `k`-th
transaction. -/
structure Moment.Succeeds (h earlier : List Moment) (e : Moment) (n k : Nat) (x : Execution) :
    Prop where
  acts : e.action = .step (.loop n)
  attempting : ∃ l attempt session deadline, e.state.self.loops[n]? = some l ∧
    l.stage = .attempting attempt session k deadline
  finished : ∃ t time, e.state.self.transactions[k]? = some t ∧ t.stage = .finished time (.ok x)
  /-- All calls of the transaction go through the client that it hands on. -/
  client {w : Moment} {call : Call} : w ∈ h → w.Makes call → call.1 = .transaction k →
    call.2.1 = x.client
  /-- Up to this moment only other loops have told that their deployments are completed. -/
  untold {w : Moment} {d : DeploymentId} {message : String} {inst : Instance} {attempts : UInt32}
    {duration : UInt64} {fresh : Bool} : w ∈ e :: earlier →
      .completed d message inst attempts duration fresh ∈ w.told →
      ∃ m l, m ≠ n ∧ w.action = .step (.loop m) ∧ w.state.self.loops[m]? = some l ∧
        l.deployment = d

/-- The setup commands of a run from `s` to `t` in which calls are made. -/
structure Conserved (s : State) (h : List Moment) (t : State) (made : List Call) : Prop where
  calls : t.world.calls = s.world.calls ++ made
  /-- What was sent, in the order of the calls, and what still waits are the first commands and all
  that were queued. -/
  commands : (sent made).flatten ++ t.self.setup = s.self.setup ++ queued h
  /-- A list that is sent is not empty, and is all that waits.  It is sent to the instance of an
  attempt that has just succeeded, through the client of the attempt. -/
  sends {before after : List Call} {call : Call} {commands : List String} :
    made = before ++ call :: after → commandsOf? call = some commands →
      ∃ later e earlier n k x, h = later ++ e :: earlier ∧
        e.state.world.calls = s.world.calls ++ before ∧ e.Succeeds h earlier n k x ∧
        commands = e.state.self.setup ∧ commands ≠ [] ∧
        call = (.loop n, x.client, .commands x.inst.id commands)
  /-- After a success nothing waits. -/
  taken {e : Moment} {n : Nat} {x : Execution} {u : State} : e ∈ h → e.success? = some (n, x) →
    e.state.perform e.action = some u → u.self.setup = []

namespace State

variable {s t u : State} {a : Action} {h earlier : List Moment} {e w : Moment} {m n k : Nat}
  {l : Loop} {x : Execution} {call : Call} {commands : List String}

/-! ### One action -/

theorem setup_of_perform (hp : s.perform a = some u)
    (unsuccessful : Moment.success? ⟨s, a⟩ = none) :
    u.self.setup = s.self.setup ++ a.queued := by
  have quiet (hself : u.self.setup = s.self.setup) (hnone : a.queued = []) :
      u.self.setup = s.self.setup ++ a.queued := by
    rw [hself, hnone, List.append_nil]
  cases a with
  | queueSetup commands =>
      obtain rfl := Option.some.inj hp
      rfl
  | step task =>
      refine quiet ?_ rfl
      cases deed_of_perform hp with
      | transaction k hstep =>
          obtain ⟨y, site, stage, -, -, hself, -⟩ := stepTransaction_cases hstep
          rw [hself]
          rfl
      | loop n hstep =>
          obtain ⟨l, hl, hs⟩ := stepLoop_cases hstep
          cases hs with
          | stops => simp [Orchestrator.setLoop]
          | begins attempt ready going =>
              rw [(beginAttempt_frame s going n attempt).1]
              rfl
          | succeeds attempt session k deadline attempting x result =>
              have success : Moment.success? ⟨s, .step (.loop n)⟩ = some (n, x) :=
                Moment.success?_eq_some.mpr
                  ⟨l, attempt, session, k, deadline, rfl, hl, attempting, result⟩
              rw [unsuccessful] at success
              cases success
          | fails => simp [Orchestrator.setLoop]
          | retries => simp [Orchestrator.setLoop]
          | completes => simp [Orchestrator.setLoop]
      | caller n hstep =>
          obtain ⟨c, -, hs⟩ := stepCaller_cases hstep
          cases hs <;> simp [Orchestrator.setCaller]
      | watch n hstep =>
          obtain ⟨site, monitor, heals, -, hself, -⟩ := stepWatch_cases hstep
          rw [hself]
          split
          · simp
          · rfl
      | sets other => exact absurd rfl (other task)
  | call request =>
      simp only [perform, Option.ite_none_right_eq_some, Option.some.injEq] at hp
      obtain ⟨-, rfl⟩ := hp
      exact quiet rfl rfl
  | abandon n =>
      obtain rfl := Option.some.inj hp
      exact quiet (by simp) rfl
  | shutdown =>
      obtain rfl := Option.some.inj hp
      exact quiet (by simp) rfl
  | release =>
      obtain rfl := Option.some.inj hp
      exact quiet (by simp) rfl
  | _ =>
      obtain rfl := Option.some.inj hp
      exact quiet rfl rfl

/-- A success takes all the setup commands.  If there are any it sends them, and tells nothing. -/
theorem setup_of_success (hp : s.perform a = some u)
    (success : Moment.success? ⟨s, a⟩ = some (n, x)) :
    u.self.setup = [] ∧
      if s.self.setup = [] then u.world.calls = s.world.calls
      else u.world.events = s.world.events ∧ u.world.calls = s.world.calls ++
        [(.loop n, x.client, .commands x.inst.id s.self.setup)] := by
  obtain ⟨l, attempt, session, k, deadline, haction, hl, hstage, hresult⟩ :=
    Moment.success?_eq_some.mp success
  have hstep : s.stepLoop n = some (s.succeed n l attempt x) := by
    simp only [stepLoop, hl, hstage, hresult]
  obtain rfl : a = .step (.loop n) := haction
  obtain rfl := Option.some.inj (hstep.symm.trans hp)
  by_cases hset : s.self.setup = []
  · obtain ⟨hself, -, -, -, hcalls, -⟩ := succeed_of_nil s hset n l attempt x
    exact ⟨by rw [hself], by rw [if_pos hset, hcalls]⟩
  · obtain ⟨⟨reply, hself⟩, -, -, -, hcalls, hevents⟩ := succeed_of_ne_nil s hset n l attempt x
    exact ⟨by rw [hself], by rw [if_neg hset]; exact ⟨hevents, hcalls⟩⟩

/-- A call that sends setup commands is made after a success, and sends all that wait. -/
theorem success_of_asks (hasks : e.Asks call) (hsends : commandsOf? call = some commands) :
    ∃ n x, e.success? = some (n, x) ∧ commands = e.state.self.setup ∧
      call = (.loop n, x.client, .commands x.inst.id commands) := by
  cases hasks with
  | transaction k y first site stage action here goes asks => cases asks <;> cases hsends
  | setup n x success =>
      cases hsends
      exact ⟨n, x, success, rfl, rfl⟩
  | status => cases hsends

/-- What an action sends and leaves is what waited before it and what it queues. -/
theorem conserved_of_perform (hp : s.perform a = some u) :
    ∃ made, u.world.calls = s.world.calls ++ made ∧
      (sent made).flatten ++ u.self.setup = s.self.setup ++ a.queued := by
  cases hsuccess : Moment.success? ⟨s, a⟩ with
  | some success =>
      obtain ⟨n, x⟩ := success
      obtain ⟨hnone, hcalls⟩ := setup_of_success hp hsuccess
      have hqueued : a.queued = [] := by
        obtain ⟨l, attempt, session, k, deadline, haction, -⟩ :=
          Moment.success?_eq_some.mp hsuccess
        rw [show a = .step (.loop n) from haction]
        rfl
      rw [hnone, hqueued, List.append_nil]
      split at hcalls
      · rename_i hset
        exact ⟨[], by rw [hcalls, List.append_nil], by rw [hset]; rfl⟩
      · exact ⟨_, hcalls.2, by simp [sent, commandsOf?]⟩
  | none =>
      have hsetup := setup_of_perform hp hsuccess
      obtain hcalls | ⟨call, hcalls, hasks⟩ := asks_of_perform hp
      · exact ⟨[], by rw [hcalls, List.append_nil], hsetup⟩
      · have hnone : commandsOf? call = none := by
          cases hsends : commandsOf? call with
          | none => rfl
          | some commands =>
              obtain ⟨n, x, success, -⟩ := success_of_asks hasks hsends
              rw [hsuccess] at success
              cases success
        exact ⟨[call], hcalls, by simpa [sent, hnone] using hsetup⟩

/-! ### Whole runs -/

theorem sent_of_trace (ht : Trace s h t) :
    ∃ made, t.world.calls = s.world.calls ++ made ∧
      (sent made).flatten ++ t.self.setup = s.self.setup ++ queued h := by
  induction ht with
  | start => exact ⟨[], by simp, by simp [sent, queued]⟩
  | @step h t u a _ hp ih =>
      obtain ⟨made, hmade, hbefore⟩ := ih
      obtain ⟨more, hmore, hafter⟩ := conserved_of_perform hp
      refine ⟨made ++ more, by rw [hmore, hmade, List.append_assoc], ?_⟩
      calc (sent (made ++ more)).flatten ++ u.self.setup
        _ = (sent made).flatten ++ ((sent more).flatten ++ u.self.setup) := by
            rw [sent_append, List.flatten_append, List.append_assoc]
        _ = ((sent made).flatten ++ t.self.setup) ++ a.queued := by
            rw [hafter, List.append_assoc]
        _ = s.self.setup ++ queued (⟨t, a⟩ :: h) := by
            rw [hbefore, queued, List.append_assoc]

theorem moment_of_call {made before after : List Call} (ht : Trace s h t)
    (hmade : t.world.calls = s.world.calls ++ made) (hsplit : made = before ++ call :: after) :
    ∃ later e earlier, h = later ++ e :: earlier ∧ e.Makes call ∧
      e.state.world.calls = s.world.calls ++ before := by
  induction ht generalizing made after with
  | start =>
      obtain rfl : made = [] := List.self_eq_append_right.mp hmade
      simp at hsplit
  | @step h t u a ht hp ih =>
      obtain ⟨first, hfirst, -⟩ := makes_of_trace ht
      have earlier_of {rest : List Call} (hrest : first = before ++ call :: rest) :
          ∃ later e earlier, ⟨t, a⟩ :: h = later ++ e :: earlier ∧ e.Makes call ∧
            e.state.world.calls = s.world.calls ++ before := by
        obtain ⟨later, e, earlier, rfl, hmakes, hcalls⟩ := ih hfirst hrest
        exact ⟨⟨t, a⟩ :: later, e, earlier, rfl, hmakes, hcalls⟩
      obtain hcalls | ⟨c, hcalls, -⟩ := asks_of_perform hp
      · rw [hcalls, hfirst, List.append_cancel_left_eq] at hmade
        exact earlier_of (hmade.trans hsplit)
      · rw [hcalls, hfirst, List.append_assoc, List.append_cancel_left_eq, hsplit] at hmade
        -- The call is one of those before, or it is the one that is made now.
        rcases split_append hmade with ⟨rest, hrest, -⟩ | ⟨init, rfl, hnow⟩
        · exact earlier_of hrest
        · obtain ⟨rfl, rfl, -⟩ : init = [] ∧ call = c ∧ after = [] := by
            simpa [List.singleton_eq_append_iff, and_assoc] using hnow
          exact ⟨[], ⟨t, a⟩, h, rfl, ⟨u, hp, hcalls⟩, by rw [List.append_nil, hfirst]⟩

/-- A deployment that is told to be completed is that of the loop that goes on, which ends. -/
theorem completes_of_told {d : DeploymentId} {message : String} {inst : Instance}
    {attempts : UInt32} {duration : UInt64} {fresh : Bool} (hp : s.perform a = some u)
    (htold : .completed d message inst attempts duration fresh ∈ Moment.told ⟨s, a⟩) :
    ∃ n l y outcome, a = .step (.loop n) ∧ s.self.loops[n]? = some l ∧ l.deployment = d ∧
      u.self.loops[n]? = some y ∧ y.stage = .finished outcome := by
  have htelling := Telling.of_told hp
  generalize Moment.told ⟨s, a⟩ = told at htelling htold
  cases htelling with
  | fails =>
      unfold failureEvents at htold
      split at htold <;> simp at htold
  | @completes n l attempt x here trying loops =>
      obtain ⟨rfl, -⟩ := Event.completed.inj (List.mem_singleton.mp htold)
      exact ⟨n, l, _, _, rfl, here, rfl, by simp [loops, Orchestrator.setLoop, here]; rfl, rfl⟩
  | moves => cases htold
  | starts =>
      rcases of_mem_startEvents htold with ⟨m, l, -, h⟩ | ⟨session, message, files, h⟩
      · cases h
      · cases h
  | aside other aside => cases aside _ htold

theorem untold_of_attempting {d : DeploymentId} {message : String} {inst : Instance}
    {attempts attempt : UInt32} {duration : UInt64} {fresh : Bool} {session : SessionId}
    {deadline : Nat} (ht : Trace s h t) (hl : t.self.loops[n]? = some l)
    (hstage : l.stage = .attempting attempt session k deadline) (hw : w ∈ h)
    (htold : .completed d message inst attempts duration fresh ∈ w.told) :
    ∃ m y, m ≠ n ∧ w.action = .step (.loop m) ∧ w.state.self.loops[m]? = some y ∧
      y.deployment = d := by
  obtain ⟨later, earlier, rfl, -, u, hp, hlater⟩ := ht.split_of_mem hw
  obtain ⟨m, y, z, outcome, haction, hy, hd, hz, hend⟩ := completes_of_told hp htold
  refine ⟨m, y, ?_, haction, hy, hd⟩
  rintro rfl
  obtain ⟨l', hl', hend'⟩ := finished_of_trace hz hend hlater
  obtain rfl := Option.some.inj (hl.symm.trans hl')
  cases hstage.symm.trans hend'

theorem success_of_makes (hmakes : e.Makes call) (hsends : commandsOf? call = some commands) :
    ∃ n x, e.success? = some (n, x) ∧ commands = e.state.self.setup ∧ commands ≠ [] ∧
      call = (.loop n, x.client, .commands x.inst.id commands) ∧ e.told = [] := by
  obtain ⟨n, x, success, rfl, rfl⟩ := success_of_asks (asks_of_makes hmakes) hsends
  obtain ⟨u, hp, hcalls⟩ := hmakes
  obtain ⟨-, hmade⟩ := setup_of_success hp success
  split at hmade
  · rw [hmade] at hcalls
    simp at hcalls
  · rename_i hset
    exact ⟨n, x, success, rfl, hset, rfl, by simp [Moment.told, hp, hmade.1]⟩

theorem action_of_makes (hmakes : w.Makes call) (hown : call.1 = .transaction k) :
    w.action = .step (.transaction k) := by
  cases asks_of_makes hmakes with
  | transaction m y first site stage action here goes asks =>
      obtain rfl : m = k := by cases asks <;> exact Task.transaction.inj hown
      exact action
  | setup => cases hown
  | status => cases hown

/-- The setup commands of a run are sent after a success, before the deployment is completed. -/
theorem succeeds_of_makes {later : List Moment} (hs : s.IsStart) (ht : Trace s h t)
    (hsplit : h = later ++ e :: earlier) (hmakes : e.Makes call)
    (hsends : commandsOf? call = some commands) :
    ∃ n k x, e.Succeeds h earlier n k x ∧ commands = e.state.self.setup ∧ commands ≠ [] ∧
      call = (.loop n, x.client, .commands x.inst.id commands) := by
  obtain ⟨n, x, success, hall, hsome, hcall, hsilent⟩ := success_of_makes hmakes hsends
  obtain ⟨l, attempt, session, k, deadline, haction, hl, hstage, hresult⟩ :=
    Moment.success?_eq_some.mp success
  obtain ⟨y, time, hy, hfinished⟩ := finished_of_attemptResult? hresult
  refine ⟨n, k, x, ⟨haction, ⟨l, attempt, session, deadline, hl, hstage⟩,
    ⟨y, time, hy, hfinished⟩, ?_, ?_⟩, hall, hsome, hcall⟩
  · intro w call' hw hmakes' hown
    have haction' := action_of_makes hmakes' hown
    obtain ⟨-, silent, -⟩ | ⟨c, -, -, kept⟩ := bound_of_trace hs ht k
    · exact absurd haction' (silent w hw)
    · have he : e ∈ h := by simp [hsplit]
      have hserves : e.serves? = some k := by simp [Moment.serves?, haction, hl, hstage]
      have hserves' : w.serves? = some k := by simp [Moment.serves?, haction']
      calc call'.2.1
        _ = c := (kept w hw).calls hserves' hmakes'
        _ = call.2.1 := ((kept e he).calls hserves hmakes).symm
        _ = x.client := by rw [hcall]
  · intro w d message inst attempts duration fresh hw htold
    rcases List.mem_cons.mp hw with rfl | hw
    · rw [hsilent] at htold
      cases htold
    · exact untold_of_attempting (hsplit ▸ ht).split.1 hl hstage hw htold

/-- In every run the setup commands are conserved, whichever loops succeed in it and whenever
commands are queued. -/
theorem conserved_of_trace (hs : s.IsStart) (ht : Trace s h t) : ∃ made, Conserved s h t made := by
  obtain ⟨made, hmade, hcommands⟩ := sent_of_trace ht
  refine ⟨made, hmade, hcommands, ?_, fun _ success hp => (setup_of_success hp success).1⟩
  intro before after call commands hsplit hsends
  obtain ⟨later, e, earlier, hmoment, hmakes, hcalls⟩ := moment_of_call ht hmade hsplit
  obtain ⟨n, k, x, hsucceeds, hrest⟩ := succeeds_of_makes hs ht hmoment hmakes hsends
  exact ⟨later, e, earlier, n, k, x, hmoment, hcalls, hsucceeds, hrest⟩

/-- An orchestrator with a command to run at first, in a project without files. -/
def prepared : State := .start 0 none {} {} ["install"] {}

/-- A loop is superseded inside its attempt, and it succeeds directly before the loop that has taken
its place; commands are queued between the two successes and after them. -/
def handover : List Action :=
  [.call .allFiles, .step (.caller 0), .step (.loop 0), .abandon 0, .call .allFiles,
    .step (.caller 1), .step (.loop 1), .step (.transaction 0), .step (.transaction 0),
    .step (.transaction 1), .step (.transaction 1), .step (.loop 0),
    .queueSetup ["build", "test"], .step (.loop 1), .queueSetup ["lint"]]

/-- Each of the two loops sends what waits when it succeeds. -/
example : (prepared.follow handover).map (fun t => (sent t.world.calls, t.self.setup)) =
    some ([["install"], ["build", "test"]], ["lint"]) := by
  decide +kernel

end State

end PreviewDeploy
