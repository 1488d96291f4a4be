import PreviewDeploy.Proofs.FileSets
import PreviewDeploy.Proofs.InstanceFiles
import PreviewDeploy.Proofs.LoopStages

/-!
# The files that a deployment has written

A deployment is completed by one of its attempts, and that attempt has written the files that it
selected when it came to an instance: the requested files if it reused the known instance, and the
files of the project if it had provisioned a new one (`State.written_of_completed`).  In the latter
case the request is not looked at, so a deployment of some files may be completed without them.

The transactions of a history are followed from the moment at which they settle on an instance
(`Filed`), and the loops from attempt to attempt (`Backed`).
-/

namespace PreviewDeploy

/-- The `k`-th transaction comes to an instance to write to at a moment: the known one is healthy,
or a new one was provisioned. -/
def Moment.Settles (e : Moment) (k : Nat) (target : Ensured) : Prop :=
  ∃ x, e.action = .step (.transaction k) ∧ e.state.self.transactions[k]? = some x ∧
    ((target.fresh = false ∧ ∃ reply, x.stage = .checking target.client target.inst reply ∧
        saysHealthy reply.result) ∨
      target.fresh = true ∧ ∃ reply, x.stage = .creating target.client reply ∧
        provisioned reply.result = .ok target.inst)

/-- The `k`-th transaction has settled on an instance, and the files are those that it selected. -/
def Chose (h : List Moment) (k : Nat) (request : Request) (target : Ensured) (files : List File) :
    Prop :=
  ∃ w ∈ h, w.Settles k target ∧
    files = Transaction.selected w.state.self.blueprint request target.fresh w.state.toSite

/-- The files were written: there are none, or the call was made and answered with success. -/
def Delivered (h : List Moment) (made : List Call) (k : Nat) (request : Request)
    (target : Ensured) (files : List File) : Prop :=
  files = [] ∨ writeCall k target request files ∈ made ∧
    ∃ w ∈ h, w.EndsWrite k target.inst.id files none

/-- What the `k`-th transaction writes or has written, by its stage. -/
structure Filed (h : List Moment) (made : List Call) (k : Nat) (x : Transaction) : Prop where
  writing : ∀ target files reply, x.stage = .writing target files reply →
    Chose h k x.request target files ∧ writeCall k target x.request files ∈ made
  past : ∀ target written, x.stage.IsPast target written →
    ∃ files, Chose h k x.request target files ∧ Delivered h made k x.request target files

namespace Filed

variable {h : List Moment} {made : List Call} {k : Nat} {x : Transaction} {e : Moment}

theorem mono (hf : Filed h made k x) (e : Moment) (more : List Call) :
    Filed (e :: h) (made ++ more) k x := by
  have chose {target : Ensured} {files : List File} (hc : Chose h k x.request target files) :
      Chose (e :: h) k x.request target files := by
    obtain ⟨w, hw, hsettles⟩ := hc
    exact ⟨w, List.mem_cons_of_mem _ hw, hsettles⟩
  refine ⟨fun target files reply hs => ?_, fun target written hp => ?_⟩
  · obtain ⟨hc, hcall⟩ := hf.writing target files reply hs
    exact ⟨chose hc, List.mem_append_left _ hcall⟩
  · obtain ⟨files, hc, hnone | ⟨hcall, w, hw, hends⟩⟩ := hf.past target written hp
    · exact ⟨files, chose hc, .inl hnone⟩
    · exact ⟨files, chose hc, .inr ⟨List.mem_append_left _ hcall, w, List.mem_cons_of_mem _ hw,
        hends⟩⟩

/-- A transaction that has no instance to write to, or has failed. -/
theorem of_idle (hwriting : ∀ target files reply, x.stage ≠ .writing target files reply)
    (hpast : ∀ target written, ¬ x.stage.IsPast target written) : Filed h made k x :=
  ⟨fun target files reply hs => absurd hs (hwriting target files reply),
    fun target written hp => absurd hp (hpast target written)⟩

theorem of_searching (hs : x.stage.IsSearching) : Filed h made k x := by
  refine of_idle (fun target files reply hw => ?_) fun target written hp => ?_
  · rw [hw] at hs
    cases hs
  · cases hstage : x.stage with
    | finished time result =>
        cases result with
        | error f => simp [hstage, TransactionStage.IsPast] at hp
        | ok exec => simp [hstage, TransactionStage.IsSearching] at hs
    | creating => simp [hstage, TransactionStage.IsPast] at hp
    | _ => simp [hstage, TransactionStage.IsSearching] at hs

theorem of_settled {target : Ensured} {files : List File} (hs : x.stage.IsSettled target files)
    (hc : Chose h k x.request target files)
    (hcall : ∀ reply, x.stage = .writing target files reply →
      writeCall k target x.request files ∈ made) : Filed h made k x := by
  generalize hstage : x.stage = stage at hs
  cases hs with
  | writing hsome reply =>
      refine ⟨fun target' files' reply' hw => ?_, fun target' written hp => ?_⟩
      · obtain ⟨rfl, rfl, rfl⟩ := TransactionStage.writing.inj (hstage.symm.trans hw)
        exact ⟨hc, hcall reply hstage⟩
      · rw [hstage] at hp
        cases hp
  | past hnone past =>
      refine ⟨fun target' files' reply' hw => ?_, fun target' written hp => ?_⟩
      · obtain rfl := hstage.symm.trans hw
        cases past
      · obtain ⟨rfl, -⟩ := past.unique (hstage ▸ hp)
        exact ⟨files, hc, .inl hnone⟩

end Filed

namespace State

variable {s t u : State} {a : Action} {h : List Moment} {k m n : Nat}

/-! ### Transactions -/

theorem transaction_of_perform {x : Transaction} (hx : s.self.transactions[k]? = some x)
    (hp : s.perform a = some u) :
    ∃ x', u.self.transactions[k]? = some x' ∧ x'.request = x.request ∧
      ∀ result, x.result? = some result → x'.result? = some result := by
  cases traffic_of_perform hp with
  | stays other transactions => exact ⟨x, transactions ▸ hx, rfl, fun _ => id⟩
  | enqueues n l attempt here ready going transactions =>
      exact ⟨x, transactions ▸ getElem?_concat_of_some hx, rfl, fun _ => id⟩
  | advances n y stage here keeps advances first self =>
      by_cases hn : k = n
      · subst hn
        obtain rfl := Option.some.inj (hx.symm.trans here)
        refine ⟨{ x with stage }, self ▸ getElem?_advanceSelf hx, rfl, fun result hresult => ?_⟩
        -- A transaction that goes on has not ended.
        have unfinished := advances.unfinished
        unfold isFinished at unfinished
        unfold Transaction.result? at hresult
        split at hresult
        · rename_i hstage
          simp [hstage] at unfinished
        · cases hresult
      · refine ⟨x, ?_, rfl, fun _ => id⟩
        rw [self, getElem?_advanceSelf_of_ne hn, hx]

/-- The transaction that goes on writes what it has selected. -/
theorem filed_of_advances {made more : List Call} {x : Transaction} {stage : TransactionStage}
    (hf : Filed h made n x) (here : s.self.transactions[n]? = some x)
    (advances : Transaction.Advances s.self.blueprint x s.toSite u.identity.inst stage)
    (self : u.self = advanceSelf n stage s.self)
    (hp : s.perform (.step (.transaction n)) = some u)
    (hmore : u.world.calls = s.world.calls ++ more) :
    Filed (⟨s, .step (.transaction n)⟩ :: h) (made ++ more) n { x with stage } := by
  have hx : u.self.transactions[n]? = some { x with stage } := self ▸ getElem?_advanceSelf here
  have called {target : Ensured} {files : List File} (reply : Pending ControlPlane.WriteResponse)
      (hs : stage = .writing target files reply) :
      writeCall n target x.request files ∈ made ++ more := by
    obtain ⟨more', hmore', hmem⟩ := write_of_stepTransaction hp hx hs
    obtain rfl := List.append_cancel_left (hmore.symm.trans hmore')
    exact List.mem_append_right _ hmem
  cases advances with
  | checks => exact .of_idle (by simp) (by simp [TransactionStage.IsPast])
  | creates queued keeps searching => exact .of_searching searching
  | discards client known reply checking sick keeps searching => exact .of_searching searching
  | fails => exact .of_idle (by simp) (by simp [TransactionStage.IsPast])
  | forgets => exact .of_idle (by simp) (by simp [TransactionStage.IsPast])
  | reuses client known reply checking healthy keeps settled =>
      exact .of_settled settled ⟨⟨s, .step (.transaction n)⟩, List.mem_cons_self ..,
        ⟨x, rfl, here, .inl ⟨rfl, reply, checking, healthy⟩⟩, rfl⟩ fun reply => called reply
  | provisions client reply creating inst named records settled =>
      exact .of_settled settled ⟨⟨s, .step (.transaction n)⟩, List.mem_cons_self ..,
        ⟨x, rfl, here, .inr ⟨rfl, reply, creating, named⟩⟩, rfl⟩ fun reply => called reply
  | writes target files reply writing success keeps past =>
      obtain ⟨⟨w, hw, hsettles⟩, hcall⟩ := hf.writing target files reply writing
      refine ⟨fun target' files' reply' hs => ?_, fun target' written hp' => ?_⟩
      · obtain rfl : stage = .writing target' files' reply' := hs
        cases past
      · obtain ⟨rfl, -⟩ := past.unique hp'
        exact ⟨files, ⟨w, List.mem_cons_of_mem _ hw, hsettles⟩, .inr
          ⟨List.mem_append_left _ hcall, _, List.mem_cons_self ..,
            x, target, reply, rfl, here, writing, rfl, success⟩⟩
  | clears target written past unfinished keeps past' =>
      have hkept := hf.mono ⟨s, .step (.transaction n)⟩ more
      refine ⟨fun target' files' reply' hs => ?_, fun target' written' hp' => ?_⟩
      · obtain rfl : stage = .writing target' files' reply' := hs
        cases past'
      · obtain ⟨rfl, -⟩ := past'.unique hp'
        exact hkept.past target written past

/-- Every transaction of a run writes what it has selected. -/
theorem filed_of_trace (hs : s.IsStart) (ht : Trace s h t) :
    ∃ made, t.world.calls = s.world.calls ++ made ∧
      ∀ (k : Nat) (x : Transaction), t.self.transactions[k]? = some x → Filed h made k x := by
  induction ht with
  | start => exact ⟨[], by simp, by simp [hs.transactions_eq_nil]⟩
  | @step h t u a ht hp ih =>
      obtain ⟨made, hmade, hfiled⟩ := ih
      obtain ⟨more, hmore⟩ := calls_of_perform hp
      refine ⟨made ++ more, by rw [hmore, hmade, List.append_assoc], fun k x hx => ?_⟩
      cases traffic_of_perform hp with
      | stays other transactions => exact (hfiled k x (transactions ▸ hx)).mono _ _
      | enqueues n l attempt here ready going transactions =>
          rcases of_getElem?_concat (transactions ▸ hx) with hx | ⟨-, rfl⟩
          · exact (hfiled k x hx).mono _ _
          · exact .of_idle (by simp) (by simp [TransactionStage.IsPast])
      | advances n y stage here keeps advances first self =>
          rcases of_getElem?_advanceSelf here (self ▸ hx) with ⟨rfl, rfl⟩ | ⟨-, hx⟩
          · exact filed_of_advances (hfiled k y here) here advances self hp hmore
          · exact (hfiled k x hx).mono _ _

/-! ### Loops -/

/-- The `k`-th transaction is an attempt of the `m`-th loop, and has its request. -/
def IsAttemptOf (h : List Moment) (t : State) (m : Nat) (request : Request) (k : Nat)
    (x : Transaction) : Prop :=
  Serves h m k ∧ t.self.transactions[k]? = some x ∧ x.request = request

/-- An attempt of the `m`-th loop has succeeded. -/
def Achieved (h : List Moment) (t : State) (m : Nat) (request : Request) (exec : Execution) :
    Prop :=
  ∃ k x, IsAttemptOf h t m request k x ∧ x.result? = some (.ok exec)

/-- What the `m`-th loop waits for is an attempt of its own, and what it has come to is what an
attempt of its own has come to. -/
def Backed (h : List Moment) (t : State) (m : Nat) (request : Request) : LoopStage → Prop
  | .attempting _ _ k _ => ∃ x, IsAttemptOf h t m request k x
  | .settingUp _ exec _ => Achieved h t m request exec
  | .finished (some o) => ∃ exec, Achieved h t m request exec ∧ exec.inst.outcome = o
  | _ => True

theorem IsAttemptOf.of_perform {request : Request} {x : Transaction}
    (hx : IsAttemptOf h s m request k x) (hp : s.perform a = some u) :
    ∃ x', IsAttemptOf (⟨s, a⟩ :: h) u m request k x' ∧
      ∀ result, x.result? = some result → x'.result? = some result := by
  obtain ⟨hserves, hx, rfl⟩ := hx
  obtain ⟨x', hx', hrequest, hresult⟩ := transaction_of_perform hx hp
  exact ⟨x', ⟨serves_cons.mpr (.inr hserves), hx', hrequest⟩, hresult⟩

theorem Achieved.of_perform {request : Request} {exec : Execution}
    (hx : Achieved h s m request exec) (hp : s.perform a = some u) :
    Achieved (⟨s, a⟩ :: h) u m request exec := by
  obtain ⟨k, x, hx, hresult⟩ := hx
  obtain ⟨x', hx', hkept⟩ := hx.of_perform hp
  exact ⟨k, x', hx', hkept _ hresult⟩

theorem Backed.of_perform {request : Request} {stage : LoopStage}
    (hb : Backed h s m request stage) (hp : s.perform a = some u) :
    Backed (⟨s, a⟩ :: h) u m request stage := by
  cases stage with
  | attempting attempt session k deadline =>
      obtain ⟨x, hx⟩ := hb
      obtain ⟨x', hx', -⟩ := hx.of_perform hp
      exact ⟨x', hx'⟩
  | settingUp attempt exec reply => exact Achieved.of_perform hb hp
  | finished outcome =>
      cases outcome with
      | none => trivial
      | some o =>
          obtain ⟨exec, hexec, hinst⟩ := hb
          exact ⟨exec, hexec.of_perform hp, hinst⟩
  | ready => trivial
  | backingOff => trivial

theorem request_of_perform {l l' : Loop} (hl : s.self.loops[m]? = some l)
    (hl' : u.self.loops[m]? = some l') (hp : s.perform a = some u) : l'.request = l.request := by
  obtain ⟨x, hx, -, hrequest, -⟩ := loop_of_perform hl hp
  rw [Option.some.inj (hl'.symm.trans hx), hrequest]

/-- A loop that begins an attempt waits for a new transaction with its request. -/
theorem self_of_begins {l : Loop} {attempt : UInt32} (hl : s.self.loops[m]? = some l)
    (ready : l.stage = .ready attempt) (going : l.cancelled = false)
    (hp : s.stepLoop m = some u) :
    u.self = attemptSelf m l.request attempt s.identity.session.id s.world.now s.self := by
  have hu : s.beginAttempt m l attempt = u := by simpa [stepLoop, hl, ready] using hp
  rw [← hu]
  exact (beginAttempt_frame s going m attempt).1

/-- An attempt that succeeds has come to what its transaction has come to. -/
theorem achieved_of_success {l : Loop} {exec : Execution} (hl : s.self.loops[m]? = some l)
    (hb : Backed h s m l.request l.stage)
    (success : Moment.success? ⟨s, a⟩ = some (m, exec)) : Achieved h s m l.request exec := by
  obtain ⟨l', attempt, session, k, deadline, -, hl', attempting, hresult⟩ :=
    Moment.success?_eq_some.mp success
  obtain rfl := Option.some.inj (hl.symm.trans hl')
  rw [attempting] at hb
  obtain ⟨x, hx⟩ := hb
  unfold attemptResult? at hresult
  simp only [hx.2.1, Option.bind_some] at hresult
  split at hresult
  · rename_i result hx'
    exact ⟨k, x, hx, hx'.trans hresult⟩
  · split at hresult <;> cases hresult

theorem backed_of_trace (hs : s.IsStart) (ht : Trace s h t) :
    ∀ (m : Nat) (l : Loop), t.self.loops[m]? = some l → Backed h t m l.request l.stage := by
  induction ht with
  | start => simp [hs.loops_eq_nil]
  | @step h t u a ht hp ih =>
      intro m l' hl'
      cases fares_of_perform hp hl' with
      | starts new ready =>
          rw [ready]
          trivial
      | stays l here other stage =>
          rw [stage, request_of_perform here hl' hp]
          exact (ih m l here).of_perform hp
      | proceeds l here acts stage =>
          subst acts
          have hb := ih m l here
          rw [request_of_perform here hl' hp]
          generalize hstage : l'.stage = stage' at stage
          cases stage with
          | stops => trivial
          | fails => trivial
          | retries => trivial
          | begins attempt session k deadline ready going =>
              have hself := self_of_begins here ready going hp
              rw [hself] at hl'
              simp only [attemptSelf, Orchestrator.setLoop, List.getElem?_modify, here] at hl'
              obtain rfl := Option.some.inj hl'
              obtain ⟨-, -, rfl, -⟩ := LoopStage.attempting.inj hstage
              exact ⟨{ request := l.request }, serves_cons.mpr (.inl
                ⟨l, attempt, rfl, here, ready, going, rfl⟩), by simp [hself, attemptSelf], rfl⟩
          | succeeds exec success =>
              exact ⟨exec, (achieved_of_success here hb success).of_perform hp, rfl⟩
          | setsUp exec success => exact (achieved_of_success here hb success).of_perform hp
          | completes attempt exec reply settingUp =>
              rw [settingUp] at hb
              exact ⟨exec, Achieved.of_perform hb hp, rfl⟩

/-! ### Deployments that are completed -/

/-- A deployment of some files that is completed was completed by an attempt that has written its
selection to the instance of the outcome: the last of the requested files with each path that is
not read-only if the attempt has reused the instance, and the last of the project's files with each
such path, whatever the request says, if it has provisioned the instance. -/
theorem written_of_completed {l : Loop} {o : Outcome} (hs : s.IsStart) (ht : Trace s h t)
    (hl : t.self.loops[m]? = some l) (hend : l.stage = .finished (some o))
    (hsome : l.request.files ≠ []) :
    ∃ k target files made w, Serves h m k ∧ target.inst.outcome = o ∧
      t.world.calls = s.world.calls ++ made ∧ Delivered h made k l.request target files ∧
      w ∈ h ∧ w.Settles k target ∧ (files.map (·.path)).Nodup ∧
      ∀ f, f ∈ files ↔ w.state.self.blueprint.policy.isReadOnly f.path = false ∧
        lastAt f.path (if target.fresh then w.state.world.project.allFiles
          else l.request.files) = some f := by
  have hb := backed_of_trace hs ht m l hl
  rw [hend] at hb
  obtain ⟨exec, ⟨k, x, ⟨hserves, hx, hrequest⟩, hresult⟩, hinst⟩ := hb
  obtain ⟨made, hmade, hfiled⟩ := filed_of_trace hs ht
  have hpast : x.stage.IsPast ⟨exec.inst, exec.fresh, exec.client⟩ exec.written := by
    unfold Transaction.result? at hresult
    split at hresult
    · rename_i time result hstage
      obtain rfl := Option.some.inj hresult
      rw [hstage]
      rfl
    · cases hresult
  obtain ⟨files, ⟨w, hw, hsettles, rfl⟩, hdelivered⟩ := (hfiled k x hx).past _ _ hpast
  rw [hrequest] at hdelivered
  refine ⟨k, _, _, made, w, hserves, hinst, hmade, hdelivered, hw, hsettles,
    Selection.nodup_paths _ _ _ _, fun f => ?_⟩
  unfold Transaction.selected
  rw [Selection.mem_files_iff]
  have hcandidates : Selection.candidates l.request.files exec.fresh w.state.world.project =
      if exec.fresh then w.state.world.project.allFiles else l.request.files := by
    cases exec.fresh <;> simp [Selection.candidates, hsome]
  rw [hcandidates]

/-- A first deployment provisions an instance; a second one writes one file to it. -/
def update : List Action :=
  [.call .allFiles, .step (.caller 0), .step (.loop 0), .step (.transaction 0),
    .step (.transaction 0), .step (.loop 0), .step (.caller 0), .call oneFile, .step (.caller 1),
    .step (.loop 1), .step (.transaction 1), .step (.transaction 1), .step (.transaction 1),
    .step (.loop 1)]

theorem written_of_completed_of_update : ∃ u h l o, Trace bare h u ∧
    u.self.loops[1]? = some l ∧ l.stage = .finished (some o) ∧ l.request = oneFile ∧
      ∃ (k : Nat) (target : Ensured) (files : List File) (made : List Call) (w : Moment),
        Serves h 1 k ∧ target.inst.outcome = o ∧ u.world.calls = bare.world.calls ++ made ∧
          Delivered h made k oneFile target files ∧ w ∈ h ∧ w.Settles k target ∧
          ∀ f, f ∈ files ↔ w.state.self.blueprint.policy.isReadOnly f.path = false ∧
            lastAt f.path (if target.fresh then w.state.world.project.allFiles
              else oneFile.files) = some f := by
  have hrun : ∃ u ∈ bare.follow update, ∃ l ∈ u.self.loops[1]?,
      decide (l.isFinished ∧ l.hasSucceeded ∧ l.request = oneFile) := by
    simp only [update, follow, perform, step, stepTransaction, Transaction.step,
      Transaction.created, Transaction.checked, Transaction.beginWriting, Selection.select,
      Selection.ofCandidates_eq]
    decide +kernel
  obtain ⟨u, ht, l, hl, h⟩ := hrun
  obtain ⟨hfinished, hsucceeded, hrequest⟩ := of_decide_eq_true h
  have ht := trace_of_follow ht
  rcases Loop.outcome_of_isFinished hfinished with ⟨-, hfailed⟩ | ⟨⟨o, hend⟩, -⟩
  · rw [hfailed] at hsucceeded
    cases hsucceeded
  · obtain ⟨k, target, files, made, w, hserves, hinst, hmade, hdelivered, hw, hsettles, -,
        hfiles⟩ := written_of_completed isStart_bare ht hl hend (by rw [hrequest]; exact List.cons_ne_nil _ _)
    rw [hrequest] at hdelivered hfiles
    exact ⟨u, _, l, o, ht, hl, hend, hrequest, k, target, files, made, w, hserves, hinst, hmade,
      hdelivered, hw, hsettles, hfiles⟩

/-- A first deployment, of one file. -/
def firstUpdate : List Action :=
  [.call oneFile, .step (.caller 0), .step (.loop 0), .step (.transaction 0),
    .step (.transaction 0), .step (.loop 0)]

/-- A requested file that is not read-only is not always written by a deployment that is
completed. -/
theorem not_written_of_completed :
    ¬ ∀ (s t : State) (h : List Moment) (m : Nat) (l : Loop) (o : Outcome) (f : File), s.IsStart →
      Trace s h t → t.self.loops[m]? = some l → l.stage = .finished (some o) →
        lastAt f.path l.request.files = some f →
          t.self.blueprint.policy.isReadOnly f.path = false →
            ∃ k target files made, Serves h m k ∧ target.inst.outcome = o ∧
              t.world.calls = s.world.calls ++ made ∧
              writeCall k target l.request files ∈ made ∧ f ∈ files := by
  intro hall
  have hrun : ∃ t ∈ bare.follow firstUpdate, ∃ l ∈ t.self.loops[0]?,
      decide (l.isFinished ∧ l.hasSucceeded ∧ l.request = oneFile ∧
        t.self.blueprint.policy.isReadOnly "src/App.tsx" = false ∧
        t.world.calls.filterMap Call.write? = []) := by
    decide +kernel
  obtain ⟨t, ht, l, hl, h⟩ := hrun
  obtain ⟨hfinished, hsucceeded, hrequest, hpolicy, hnone⟩ := of_decide_eq_true h
  rcases Loop.outcome_of_isFinished hfinished with ⟨-, hfailed⟩ | ⟨⟨o, hend⟩, -⟩
  · rw [hfailed] at hsucceeded
    cases hsucceeded
  · obtain ⟨k, target, files, made, -, -, hmade, hcall, -⟩ :=
      hall bare t _ 0 l o ⟨"src/App.tsx", "v2"⟩ isStart_bare (trace_of_follow ht) hl hend
        (by rw [hrequest]; rfl) hpolicy
    have hmem : writeCall k target l.request files ∈ t.world.calls := by
      rw [hmade]
      exact List.mem_append_right _ hcall
    cases List.filterMap_eq_nil_iff.mp hnone _ hmem

end State

end PreviewDeploy
