import PreviewDeploy.Proofs.WrittenFiles

/-!
# The calls of a run

A moment makes at most one call (`State.asks_of_perform`).  A transaction makes the one that its
new stage waits for, a loop that has succeeded sends the setup commands through the client of its
attempt, and a watch asks for the status of its instance (`Moment.Asks`).
-/

namespace PreviewDeploy

/-- The call for a new instance with some variables. -/
def Blueprint.creation (b : Blueprint) (vars : Vars) : ControlPlane.CreateRequest where
  template := b.template.name
  projectName := b.template.projectName
  options := { initCommand := b.template.initCommand, localDev := true }
  envVars := vars

/-- Nothing is called from one site to the other, and time and files are the same. -/
structure Site.Silent (s s' : Site) : Prop where
  now : s'.world.now = s.world.now
  epoch : s'.world.epoch = s.world.epoch
  project : s'.world.project = s.world.project
  calls : s'.world.calls = s.world.calls

namespace Site

variable {s s' s'' : Site}

theorem Silent.rfl : Silent s s := ⟨.refl _, .refl _, .refl _, .refl _⟩

theorem Silent.trans (h : Silent s s') (h' : Silent s' s'') : Silent s s'' :=
  ⟨h'.now.trans h.now, h'.epoch.trans h.epoch, h'.project.trans h.project, h'.calls.trans h.calls⟩

theorem silent_warn (text : String) : Silent s (s.warn text) :=
  ⟨by simp, .refl _, by simp, by simp⟩

theorem silent_foldl_warn {α : Type} (text : String) (xs : List α) (s : Site) :
    Silent s (xs.foldl (fun s _ => s.warn text) s) := by
  induction xs generalizing s with
  | nil => exact .rfl
  | cons x xs ih => exact (silent_warn text).trans (ih (s.warn text))

theorem silent_connect : Silent s s.connect.2 := by
  refine ⟨by simp, ?_, by simp, by simp⟩
  unfold connect
  split <;> rfl

theorem silent_setInstanceIf (session : SessionId) (inst : Instance) :
    Silent s (s.setInstanceIf session inst).2 := by
  refine ⟨by simp, ?_, by simp, by simp⟩
  unfold setInstanceIf
  split
  · simp only [Identity.instanceSaved]
    split
    · rfl
    · exact World.epoch_persist ..
  · rfl

end Site

namespace Transaction

/-- The call that a stage waits for, when the `n`-th transaction comes to the stage at a site. -/
inductive Asks (b : Blueprint) (n : Nat) (request : Request) (s : Site) :
    TransactionStage → Call → Prop
  | status (client : Client) (known : Instance) (reply : Pending ControlPlane.InstanceStatus) :
      Asks b n request s (.checking client known reply) (.transaction n, client, .status known.id)
  | create (client : Client) (reply : Pending ControlPlane.CreateResponse) (vars : Vars)
      (nonce : String)
      (minted : b.env.forSession client.session s.world.unixSeconds nonce = .ok vars) :
      Asks b n request s (.creating client reply)
        (.transaction n, client, .create (b.creation vars))
  | write (target : Ensured) (reply : Pending ControlPlane.WriteResponse) :
      Asks b n request s (.writing target (selected b request target.fresh s) reply)
        (writeCall n target request (selected b request target.fresh s))
  | logs (target : Ensured) (written : Nat) (reply : Pending ControlPlane.InstanceLogs) :
      Asks b n request s (.readingLogs target written reply)
        (.transaction n, target.client, .logs target.inst.id true)
  | clear (target : Ensured) (written : Nat) (reply : Pending ControlPlane.ClearResponse) :
      Asks b n request s (.clearingErrors target written reply)
        (.transaction n, target.client, .clearErrors target.inst.id)

/-- A step makes no call, or the one that the new stage waits for. -/
def AsksAtMost (b : Blueprint) (n : Nat) (request : Request) (s s' : Site)
    (stage : TransactionStage) : Prop :=
  s'.world.calls = s.world.calls ∨
    ∃ c, s'.world.calls = s.world.calls ++ [c] ∧ Asks b n request s stage c

variable {b : Blueprint} {n : Nat} {request : Request} {s s₁ s' : Site} {stage : TransactionStage}
  {target : Ensured} {written : Nat} {client : Client}

/-- What comes before a call does not show in it, if it is silent. -/
theorem AsksAtMost.of_silent (h : AsksAtMost b n request s₁ s' stage) (hs : s.Silent s₁) :
    AsksAtMost b n request s s' stage := by
  obtain h | ⟨c, hc, hasks⟩ := h
  · exact .inl (h.trans hs.calls)
  · refine .inr ⟨c, by rw [hc, hs.calls], ?_⟩
    cases hasks with
    | status => constructor
    | logs => constructor
    | clear => constructor
    | create client reply vars nonce minted =>
        have hseconds : s₁.world.unixSeconds = s.world.unixSeconds := by
          simp only [World.unixSeconds, World.millis, hs.now, hs.epoch]
        exact .create client reply vars nonce (hseconds ▸ minted)
    | write target reply =>
        have hselected :
            selected b request target.fresh s₁ = selected b request target.fresh s := by
          rw [selected, selected, hs.project]
        rw [hselected]
        exact .write target reply

theorem asks_of_ask {α : Type} {asked : ControlPlane.Request}
    (take : ControlPlane.Script → ControlPlane.Reply α × ControlPlane.Script)
    (hasks : Asks b n request s stage (.transaction n, client, asked)) :
    AsksAtMost b n request s
      { s with world := (s.world.ask (.transaction n) client asked take).2 } stage :=
  .inr ⟨_, by simp, hasks⟩

/-! ### Parts of a step -/

theorem asks_of_beginClearing (h : beginClearing n request target written s = (s', stage)) :
    AsksAtMost b n request s s' stage := by
  rw [beginClearing_eq] at h
  split at h
  · obtain ⟨rfl, rfl⟩ := Prod.mk.inj h
    exact asks_of_ask _ (.logs target written _)
  · obtain ⟨rfl, rfl⟩ := Prod.mk.inj h
    exact .inl rfl

theorem silent_warned (request : Request) (fresh : Bool) :
    s.Silent (warned b request fresh s) := by
  unfold warned warnOfDropped
  simp only
  generalize (Selection.select b.policy request.files fresh s.world.project).dropped = dropped
  have hw := Site.silent_foldl_warn "policy violation: skipping write to read-only path" dropped s
  exact hw.trans ⟨by simp, .refl _, by simp, by simp⟩

theorem asks_of_beginWriting (h : beginWriting b n request target s = (s', stage)) :
    AsksAtMost b n request s s' stage := by
  have hw := silent_warned (b := b) (s := s) request target.fresh
  rw [beginWriting_eq] at h
  simp only at h
  split at h
  · exact (asks_of_beginClearing h).of_silent hw
  · obtain ⟨rfl, rfl⟩ := Prod.mk.inj h
    exact .inr ⟨_, by simp [World.askWrite, hw.calls, writeCall], .write target _⟩

theorem asks_of_beginCreating (h : beginCreating b n client s = (s', stage)) :
    AsksAtMost b n request s s' stage := by
  have hm : s.Silent { s with world := s.world.mintNonce.2 } :=
    ⟨by simp, .refl _, by simp, by simp⟩
  unfold beginCreating at h
  simp only at h
  split at h
  · obtain ⟨rfl, rfl⟩ := Prod.mk.inj h
    exact .inl hm.calls
  · rename_i vars minted
    obtain ⟨rfl, rfl⟩ := Prod.mk.inj h
    exact (asks_of_ask (s := { s with world := s.world.mintNonce.2 }) _
      (.create client _ vars _ minted)).of_silent hm

theorem asks_of_begin (h : begin b n request s = (s', stage)) :
    AsksAtMost b n request s s' stage := by
  unfold begin at h
  simp only at h
  split at h
  · rename_i known hknown
    obtain ⟨rfl, rfl⟩ := Prod.mk.inj h
    exact (asks_of_ask _ (.status _ known _)).of_silent Site.silent_connect
  · exact (asks_of_beginCreating h).of_silent Site.silent_connect

theorem asks_of_checked {known : Instance}
    {result : Except ControlPlane.Fault ControlPlane.InstanceStatus}
    (h : checked b n request client known result s = (s', stage)) :
    AsksAtMost b n request s s' stage := by
  unfold checked at h
  split at h
  · split at h
    · exact asks_of_beginWriting h
    · exact asks_of_beginCreating h
  · exact (asks_of_beginCreating h).of_silent (Site.silent_warn _)

theorem asks_of_created {result : Except ControlPlane.Fault ControlPlane.CreateResponse}
    (h : created b n request client result s = (s', stage)) :
    AsksAtMost b n request s s' stage := by
  unfold created at h
  split at h
  · obtain ⟨rfl, rfl⟩ := Prod.mk.inj h
    exact .inl rfl
  · split at h
    · obtain ⟨rfl, rfl⟩ := Prod.mk.inj h
      exact .inl rfl
    · rename_i inst _
      have hset := Site.silent_setInstanceIf (s := s) client.session inst
      simp only at h
      split at h
      · exact (asks_of_beginWriting h).of_silent hset
      · exact (asks_of_beginWriting h).of_silent (hset.trans (Site.silent_warn _))

theorem asks_of_wrote {files : List File}
    {result : Except ControlPlane.Fault ControlPlane.WriteResponse}
    (h : wrote n request target files result s = (s', stage)) :
    AsksAtMost b n request s s' stage := by
  unfold wrote at h
  split at h
  · obtain ⟨rfl, rfl⟩ := Prod.mk.inj h
    exact .inl (by simp)
  · rename_i response
    have hw := Site.silent_foldl_warn "file write failed" response.failed s
    simp only at h
    split at h
    · obtain ⟨rfl, rfl⟩ := Prod.mk.inj h
      exact .inl (by simp [hw.calls])
    · exact (asks_of_beginClearing h).of_silent hw

theorem asks_of_readLogs {result : Except ControlPlane.Fault ControlPlane.InstanceLogs}
    (h : readLogs n target written result s = (s', stage)) :
    AsksAtMost b n request s s' stage := by
  let s₁ := if result.isOk then s else s.warn "failed to clear logs"
  have hw : s.Silent s₁ := by
    simp only [s₁]
    split
    · exact .rfl
    · exact Site.silent_warn _
  have he : ({ s₁ with world := (s₁.world.askClear (.transaction n) target.client
      target.inst.id).2 }, TransactionStage.clearingErrors target written
        (s₁.world.askClear (.transaction n) target.client target.inst.id).1) = (s', stage) := h
  obtain ⟨rfl, rfl⟩ := Prod.mk.inj he
  exact (asks_of_ask _ (.clear target written _)).of_silent hw

theorem asks_of_clearedErrors {result : Except ControlPlane.Fault ControlPlane.ClearResponse}
    (h : clearedErrors target written result s = (s', stage)) :
    AsksAtMost b n request s s' stage := by
  unfold clearedErrors at h
  simp only at h
  obtain ⟨rfl, rfl⟩ := Prod.mk.inj h
  refine .inl ?_
  split
  · rfl
  · simp

/-- A step of a transaction makes no call, or the one that its new stage waits for. -/
theorem asks_of_step {t : Transaction} {first : Bool}
    (h : t.step b n first s = some (s', stage)) : AsksAtMost b n t.request s s' stage := by
  have hsteps := stepsFrom_of_step h
  generalize t.stage = place at hsteps
  cases hsteps with
  | queued free goes => exact asks_of_begin goes
  | checking client known reply goes => exact asks_of_checked goes
  | creating client reply goes => exact asks_of_created goes
  | writing target files reply goes => exact asks_of_wrote goes
  | readingLogs target written reply goes => exact asks_of_readLogs goes
  | clearingErrors target written reply goes => exact asks_of_clearedErrors goes

end Transaction

/-! ### One moment -/

namespace Moment

/-- What is called at a moment. -/
inductive Asks (e : Moment) : Call → Prop
  | transaction (k : Nat) (x : Transaction) (first : Bool) (site : Site)
      (stage : TransactionStage) {c : Call} (action : e.action = .step (.transaction k))
      (here : e.state.self.transactions[k]? = some x)
      (goes : x.step e.state.self.blueprint k first e.state.toSite = some (site, stage))
      (asks : Transaction.Asks e.state.self.blueprint k x.request e.state.toSite stage c) :
      Asks e c
  /-- A loop that has succeeded sends the setup commands. -/
  | setup (n : Nat) (exec : Execution) (success : e.success? = some (n, exec)) :
      Asks e (.loop n, exec.client, .commands exec.inst.id e.state.self.setup)
  | status (n : Nat) (w : Watch) (action : e.action = .step (.watch n))
      (here : e.state.self.monitor.watches[n]? = some w) :
      Asks e (.watch n, e.state.connect.1, .status w.inst)

/-- A call is made at a moment. -/
def Makes (e : Moment) (c : Call) : Prop :=
  ∃ u, e.state.perform e.action = some u ∧ u.world.calls = e.state.world.calls ++ [c]

end Moment

namespace Monitor

variable {hs : Healers} {n : Nat} {s s' : Site} {m m' : Monitor} {heals : Bool}

theorem calls_of_answered {w : Watch} {next : Nat} {unhealthy : UInt32}
    {result : Except ControlPlane.Fault ControlPlane.InstanceStatus}
    (h : answered hs n w next unhealthy result s m = (s', m', heals)) :
    s'.world.calls = s.world.calls := by
  unfold answered trigger at h
  simp only at h
  repeat' split at h
  all_goals
    simp only [Prod.mk.injEq] at h
    obtain ⟨rfl, -⟩ := h
    simp

theorem asks_of_step
    (h : m.step hs n s = some (s', m', heals)) :
    s'.world.calls = s.world.calls ∨ ∃ w, m.watches[n]? = some w ∧
      s'.world.calls = s.world.calls ++ [(.watch n, s.connect.1, .status w.inst)] := by
  obtain ⟨w, hw, hsteps⟩ := stepsFrom_of_step h
  cases hsteps with
  | stops due unhealthy sleeping cancelled goes =>
      obtain ⟨rfl, -⟩ := Prod.mk.inj goes
      exact .inl rfl
  | ticks due unhealthy sleeping going goes =>
      simp only [tick, Prod.mk.injEq] at goes
      obtain ⟨rfl, -⟩ := goes
      exact .inr ⟨w, hw, by simp [World.askStatus]⟩
  | answered next unhealthy reply asking goes => exact .inl (calls_of_answered goes)

end Monitor

namespace State

variable {s t u : State} {a : Action} {h : List Moment} {n : Nat}

theorem asks_of_stepLoop (hp : s.stepLoop n = some u) :
    u.world.calls = s.world.calls ∨ ∃ c, u.world.calls = s.world.calls ++ [c] ∧
      Moment.Asks ⟨s, .step (.loop n)⟩ c := by
  obtain ⟨l, hl, hs⟩ := stepLoop_cases hp
  cases hs with
  | succeeds attempt session k deadline attempting exec result =>
      by_cases hset : s.self.setup = []
      · exact .inl (succeed_of_nil s hset n l attempt exec).2.2.2.2.1
      · refine .inr ⟨_, (succeed_of_ne_nil s hset n l attempt exec).2.2.2.2.1, ?_⟩
        exact .setup n exec (Moment.success?_eq_some.mpr
          ⟨l, attempt, session, k, deadline, rfl, hl, attempting, result⟩)
  | begins attempt ready going =>
      exact .inl (by simp [s.beginAttempt_frame going n attempt])
  | stops => exact .inl (by simp)
  | fails => exact .inl (by simp)
  | retries => exact .inl (by simp)
  | completes => exact .inl (by simp)

/-- Whatever is done, at most one call is made. -/
theorem asks_of_perform (hp : s.perform a = some u) :
    u.world.calls = s.world.calls ∨ ∃ c, u.world.calls = s.world.calls ++ [c] ∧
      Moment.Asks ⟨s, a⟩ c := by
  cases deed_of_perform hp with
  | transaction k hstep =>
      obtain ⟨x, site, stage, hx, hstep, -, -, -, -, hcalls, -⟩ := stepTransaction_cases hstep
      obtain hnone | ⟨c, hc, hasks⟩ := Transaction.asks_of_step hstep
      · exact .inl (hcalls.trans hnone)
      · exact .inr ⟨c, hcalls.trans hc, .transaction k x _ site stage rfl hx hstep hasks⟩
  | loop n hstep => exact asks_of_stepLoop hstep
  | caller n hstep =>
      obtain ⟨c, -, hs⟩ := stepCaller_cases hstep
      cases hs with
      | refused => exact .inl (by simp)
      | joins => exact .inl (by simp)
      | starts => exact .inl (by simp)
      | returns => exact .inl (by simp)
      | expires => exact .inl (by simp)
  | watch n hstep =>
      obtain ⟨site, monitor, heals, -, -, -, -, -, hcalls, -, hm⟩ := stepWatch_cases hstep
      obtain hnone | ⟨w, hw, hc⟩ := Monitor.asks_of_step hm
      · exact .inl (hcalls.trans hnone)
      · exact .inr ⟨_, hcalls.trans hc, .status n w rfl hw⟩
  | passes => exact .inl rfl
  | calls => exact .inl (by simp)
  | abandons => exact .inl (by simp)
  | shuts => exact .inl (by simp)
  | releases => exact .inl (by simp)
  | sets other _ self identity _ calls => exact .inl calls

theorem asks_of_makes {e : Moment} {c : Call} (hm : e.Makes c) : e.Asks c := by
  obtain ⟨u, hp, hc⟩ := hm
  obtain hnone | ⟨c', hc', hasks⟩ := asks_of_perform hp
  · rw [hc] at hnone
    exact absurd hnone (by simp)
  · rw [hc, List.append_cancel_left_eq, List.cons.injEq] at hc'
    exact hc'.1 ▸ hasks

theorem makes_of_trace (ht : Trace s h t) :
    ∃ made, t.world.calls = s.world.calls ++ made ∧ ∀ c ∈ made, ∃ e ∈ h, e.Makes c := by
  induction ht with
  | start => exact ⟨[], by simp⟩
  | @step h t u a ht hp ih =>
      obtain ⟨made, hmade, hmakes⟩ := ih
      have before : ∀ c ∈ made, ∃ e ∈ ⟨t, a⟩ :: h, e.Makes c := fun c hc =>
        (hmakes c hc).imp fun e he => ⟨List.mem_cons_of_mem _ he.1, he.2⟩
      obtain hnone | ⟨c, hc, -⟩ := asks_of_perform hp
      · exact ⟨made, hnone.trans hmade, before⟩
      · refine ⟨made ++ [c], by rw [hc, hmade, List.append_assoc], fun c' hc' => ?_⟩
        obtain hc' | hc' := List.mem_append.mp hc'
        · exact before c' hc'
        · rw [List.mem_singleton.mp hc']
          exact ⟨⟨t, a⟩, List.mem_cons_self .., u, hp, hc⟩

end State

end PreviewDeploy
