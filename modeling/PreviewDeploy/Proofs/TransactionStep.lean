import PreviewDeploy.Proofs.Frames

/-!
# Steps of a transaction

What one step of a transaction does (`Transaction.advances_of_step`): which stage it leads to,
what becomes of the identity, and which calls it makes.  A transaction has *settled* on an
instance when it has one to write to, and is *past the write* when the files that it selected are
written or there are none.
-/

namespace PreviewDeploy

open ControlPlane (Fault CreateResponse WriteResponse InstanceStatus)

/-- Why a write has failed, if it has: it was not answered, or the answer says so. -/
def writeFailure? : Except Fault WriteResponse → Option Failure
  | .error fault => some (.controlPlane fault)
  | .ok response => response.failure?

/-- The instance that was provisioned, or why there is none. -/
def provisioned : Except Fault CreateResponse → Except Failure Instance
  | .error fault => .error (.controlPlane fault)
  | .ok response => response.toInstance

/-- The answer says that the instance can be used. -/
def saysHealthy : Except Fault InstanceStatus → Bool
  | .error _ => false
  | .ok status => status.success && status.isHealthy

namespace TransactionStage

/-- The write to an instance is over, with success; so many files were written. -/
def IsPast (target : Ensured) (written : Nat) : TransactionStage → Prop
  | .readingLogs e w _ => e = target ∧ w = written
  | .clearingErrors e w _ => e = target ∧ w = written
  | .finished _ (.ok x) => x = ⟨target.inst, target.fresh, written, target.client⟩
  | _ => False

theorem IsPast.unique {stage : TransactionStage} {target target' : Ensured} {written written' : Nat}
    (h : stage.IsPast target written) (h' : stage.IsPast target' written') :
    target = target' ∧ written = written' := by
  cases stage with
  | readingLogs => exact ⟨h.1.symm.trans h'.1, h.2.symm.trans h'.2⟩
  | clearingErrors => exact ⟨h.1.symm.trans h'.1, h.2.symm.trans h'.2⟩
  | finished time result =>
      cases result with
      | error f => cases h
      | ok x =>
          have heq : (⟨target.inst, target.fresh, written, target.client⟩ : Execution) =
              ⟨target'.inst, target'.fresh, written', target'.client⟩ := h.symm.trans h'
          cases target
          cases target'
          simpa [and_assoc, and_left_comm, and_comm] using heq
  | _ => cases h

/-- There is an instance to write to: its files are being written, or the write is over, which
it is at once if there are no files. -/
inductive IsSettled (target : Ensured) (files : List File) : TransactionStage → Prop
  | writing (h : files ≠ []) (reply : Pending WriteResponse) :
      IsSettled target files (.writing target files reply)
  | past (h : files = []) {stage : TransactionStage} (past : stage.IsPast target 0) :
      IsSettled target files stage

/-- No instance was found yet, or none will be. -/
def IsSearching : TransactionStage → Prop
  | .creating .. => True
  | .finished _ (.error _) => True
  | _ => False

end TransactionStage

namespace Transaction

/-- What a step of the n-th transaction keeps: time, files, events and session; the calls that it
makes are its own. -/
structure Keeps (n : Nat) (s s' : Site) : Prop where
  now : s'.world.now = s.world.now
  project : s'.world.project = s.world.project
  events : s'.world.events = s.world.events
  calls : ∃ made, s'.world.calls = s.world.calls ++ made ∧ ∀ c ∈ made, c.1 = .transaction n
  session : s'.identity.session = s.identity.session

namespace Keeps

variable {n : Nat} {s s' s'' : Site}

theorem trans (h : Keeps n s s') (h' : Keeps n s' s'') : Keeps n s s'' := by
  obtain ⟨made, hm, hmade⟩ := h.calls
  obtain ⟨made', hm', hmade'⟩ := h'.calls
  refine ⟨h'.now.trans h.now, h'.project.trans h.project, h'.events.trans h.events,
    ⟨made ++ made', ?_, ?_⟩, h'.session.trans h.session⟩
  · rw [hm', hm, List.append_assoc]
  · intro c hc
    rcases List.mem_append.mp hc with hc | hc
    · exact hmade c hc
    · exact hmade' c hc

/-- A step that makes no call. -/
theorem of_silent (hw : s'.world.now = s.world.now ∧ s'.world.project = s.world.project ∧
    s'.world.calls = s.world.calls ∧ s'.world.events = s.world.events)
    (hs : s'.identity.session = s.identity.session) : Keeps n s s' :=
  ⟨hw.1, hw.2.1, hw.2.2.2, ⟨[], by simp [hw.2.2.1], by simp⟩, hs⟩

theorem rfl : Keeps n s s := of_silent ⟨.refl _, .refl _, .refl _, .refl _⟩ (.refl _)

theorem of_ask {α : Type} (client : Client) (request : ControlPlane.Request)
    (take : ControlPlane.Script → ControlPlane.Reply α × ControlPlane.Script) :
    Keeps n s { s with world := (s.world.ask (.transaction n) client request take).2 } := by
  refine ⟨?_, ?_, ?_, ⟨[(.transaction n, client, request)], ?_, ?_⟩, .refl _⟩ <;> simp

end Keeps

variable {b : Blueprint} {n : Nat} {request : Request} {target : Ensured} {s s' : Site}
  {stage : TransactionStage} {written : Nat}

/-! ### Parts of a step -/

theorem beginClearing_eq :
    beginClearing n request target written s =
      if request.clearLogs then
        ({ s with world := (s.world.askLogs (.transaction n) target.client target.inst.id true).2 },
          .readingLogs target written
            (s.world.askLogs (.transaction n) target.client target.inst.id true).1)
      else finish (.ok ⟨target.inst, target.fresh, written, target.client⟩) s := rfl

theorem isPast_of_beginClearing (h : beginClearing n request target written s = (s', stage)) :
    Keeps n s s' ∧ s'.identity = s.identity ∧ stage.IsPast target written := by
  rw [beginClearing_eq] at h
  split at h
  · obtain ⟨rfl, rfl⟩ := Prod.mk.inj h
    exact ⟨Keeps.of_ask _ _ _, rfl, rfl, rfl⟩
  · obtain ⟨rfl, rfl⟩ := Prod.mk.inj h
    exact ⟨Keeps.rfl, rfl, rfl⟩

theorem keeps_foldl_warn {α : Type} (text : String) (xs : List α) (s : Site) :
    Keeps n s (xs.foldl (fun s _ => s.warn text) s) ∧
      (xs.foldl (fun s _ => s.warn text) s).identity = s.identity := by
  induction xs generalizing s with
  | nil => exact ⟨Keeps.rfl, rfl⟩
  | cons x xs ih =>
      have hw : Keeps n s (s.warn text) := Keeps.of_silent (by simp) rfl
      obtain ⟨hk, hi⟩ := ih (s.warn text)
      exact ⟨hw.trans hk, hi⟩

/-- The files that a transaction selects for an instance. -/
def selected (b : Blueprint) (request : Request) (fresh : Bool) (s : Site) : List File :=
  (Selection.select b.policy request.files fresh s.world.project).files

/-- The site after the warnings of a selection. -/
def warned (b : Blueprint) (request : Request) (fresh : Bool) (s : Site) : Site :=
  let dropped := (Selection.select b.policy request.files fresh s.world.project).dropped
  (warnOfDropped dropped s).mapWorld (·.countWith (·.drop dropped.length))

theorem keeps_warned (request : Request) (fresh : Bool) :
    Keeps n s (warned b request fresh s) ∧ (warned b request fresh s).identity = s.identity := by
  unfold warned warnOfDropped
  simp only
  generalize (Selection.select b.policy request.files fresh s.world.project).dropped = dropped
  obtain ⟨hk, hi⟩ := keeps_foldl_warn (n := n)
    "policy violation: skipping write to read-only path" dropped s
  exact ⟨hk.trans (Keeps.of_silent (by simp) rfl), hi⟩

theorem beginWriting_eq :
    beginWriting b n request target s =
      let s' := warned b request target.fresh s
      let files := selected b request target.fresh s
      if files.isEmpty then beginClearing n request target 0 s'
      else
        ({ s' with world := (s'.world.askWrite (.transaction n) target.client target.inst.id files
            request.commitMessage).2 },
          .writing target files (s'.world.askWrite (.transaction n) target.client target.inst.id
            files request.commitMessage).1) := rfl

theorem isSettled_of_beginWriting (h : beginWriting b n request target s = (s', stage)) :
    Keeps n s s' ∧ s'.identity = s.identity ∧
      stage.IsSettled target (selected b request target.fresh s) := by
  obtain ⟨hk, hi⟩ := keeps_warned (b := b) (n := n) (s := s) request target.fresh
  rw [beginWriting_eq] at h
  simp only at h
  split at h
  · rename_i hnil
    obtain ⟨hk', hi', hp⟩ := isPast_of_beginClearing h
    exact ⟨hk.trans hk', hi'.trans hi, .past (List.isEmpty_iff.mp hnil) hp⟩
  · rename_i hne
    obtain ⟨rfl, rfl⟩ := Prod.mk.inj h
    refine ⟨hk.trans (Keeps.of_ask _ _ _), hi, .writing ?_ _⟩
    exact fun h => hne (List.isEmpty_iff.mpr h)

theorem isSearching_of_beginCreating {client : Client}
    (h : beginCreating b n client s = (s', stage)) :
    Keeps n s s' ∧ s'.identity = s.identity ∧ stage.IsSearching := by
  have hm : Keeps n s { s with world := s.world.mintNonce.2 } :=
    Keeps.of_silent (by simp) rfl
  unfold beginCreating at h
  simp only at h
  split at h
  · obtain ⟨rfl, rfl⟩ := Prod.mk.inj h
    exact ⟨hm, rfl, trivial⟩
  · obtain ⟨rfl, rfl⟩ := Prod.mk.inj h
    exact ⟨hm.trans (Keeps.of_ask _ _ _), rfl, trivial⟩

/-! ### One step -/

/-- What a step of a transaction comes to, by the stage before it: the known instance after the
step, and the stage. -/
inductive Advances (b : Blueprint) (t : Transaction) (s : Site) (after : Option Instance) :
    TransactionStage → Prop
  /-- The first in line begins, and asks for the known instance if there is one. -/
  | checks (queued : t.stage = .queued) (known : Instance) (client : Client)
      (reply : Pending InstanceStatus) (inst : s.identity.inst = some known)
      (keeps : after = s.identity.inst) :
      Advances b t s after (.checking client known reply)
  | creates (queued : t.stage = .queued) {stage : TransactionStage}
      (keeps : after = s.identity.inst) (searching : stage.IsSearching) :
      Advances b t s after stage
  /-- The known instance is healthy. -/
  | reuses (client : Client) (known : Instance) (reply : Pending InstanceStatus)
      (checking : t.stage = .checking client known reply) (healthy : saysHealthy reply.result)
      (keeps : after = s.identity.inst) {stage : TransactionStage}
      (settled : stage.IsSettled ⟨known, false, client⟩ (selected b t.request false s)) :
      Advances b t s after stage
  | discards (client : Client) (known : Instance) (reply : Pending InstanceStatus)
      (checking : t.stage = .checking client known reply) (sick : ¬ saysHealthy reply.result)
      (keeps : after = s.identity.inst) {stage : TransactionStage}
      (searching : stage.IsSearching) : Advances b t s after stage
  /-- A new instance was provisioned; it is recorded if the session is still the current one. -/
  | provisions (client : Client) (reply : Pending CreateResponse)
      (creating : t.stage = .creating client reply) (inst : Instance)
      (named : provisioned reply.result = .ok inst)
      (records : after =
        if s.identity.session.id = client.session then some inst else s.identity.inst)
      {stage : TransactionStage}
      (settled : stage.IsSettled ⟨inst, true, client⟩ (selected b t.request true s)) :
      Advances b t s after stage
  | fails (client : Client) (reply : Pending CreateResponse)
      (creating : t.stage = .creating client reply) (failure : Failure)
      (refused : provisioned reply.result = .error failure) (keeps : after = s.identity.inst) :
      Advances b t s after (.finished s.world.now (.error failure))
  | writes (target : Ensured) (files : List File) (reply : Pending WriteResponse)
      (writing : t.stage = .writing target files reply)
      (success : writeFailure? reply.result = none)
      (keeps : after = s.identity.inst) {stage : TransactionStage}
      (past : stage.IsPast target files.length) : Advances b t s after stage
  /-- The write has failed, and the instance is forgotten. -/
  | forgets (target : Ensured) (files : List File) (reply : Pending WriteResponse)
      (writing : t.stage = .writing target files reply) (failure : Failure)
      (failed : writeFailure? reply.result = some failure)
      (cleared : after = s.identity.inst.filter fun i => i.id ≠ target.inst.id) :
      Advances b t s after (.finished s.world.now (.error failure))
  /-- The logs are being cleared, or were. -/
  | clears (target : Ensured) (written : Nat) (past : t.stage.IsPast target written)
      (unfinished : t.result? = none) (keeps : after = s.identity.inst)
      {stage : TransactionStage} (past' : stage.IsPast target written) :
      Advances b t s after stage

theorem advances_of_begin {t : Transaction} (hq : t.stage = .queued)
    (h : begin b n t.request s = (s', stage)) :
    Keeps n s s' ∧ Advances b t s s'.identity.inst stage := by
  have hc : Keeps n s s.connect.2 := Keeps.of_silent (by simp) (by simp)
  unfold begin at h
  cases hknown : (if t.request.redeploy then none else s.connect.2.identity.inst) with
  | some known =>
      simp only [hknown] at h
      obtain ⟨rfl, rfl⟩ := Prod.mk.inj h
      refine ⟨hc.trans (Keeps.of_ask _ _ _), .checks hq known _ _ ?_ (by simp)⟩
      split at hknown
      · cases hknown
      · simpa using hknown
  | none =>
      simp only [hknown] at h
      obtain ⟨hk, hi, hs⟩ := isSearching_of_beginCreating h
      exact ⟨hc.trans hk, .creates hq (by simp [hi]) hs⟩

theorem advances_of_checked {t : Transaction} {client : Client} {known : Instance}
    {reply : Pending InstanceStatus} (hs : t.stage = .checking client known reply)
    (h : checked b n t.request client known reply.result s = (s', stage)) :
    Keeps n s s' ∧ Advances b t s s'.identity.inst stage := by
  unfold checked at h
  split at h
  · rename_i status hstatus
    split at h
    · rename_i hok
      obtain ⟨hk, hi, hset⟩ := isSettled_of_beginWriting h
      have healthy : saysHealthy reply.result := by simpa [saysHealthy, hstatus] using hok
      exact ⟨hk, .reuses client known reply hs healthy (by rw [hi]) hset⟩
    · rename_i hok
      obtain ⟨hk, hi, hsearch⟩ := isSearching_of_beginCreating h
      have sick : ¬ saysHealthy reply.result := by simpa [saysHealthy, hstatus] using hok
      exact ⟨hk, .discards client known reply hs sick (by rw [hi]) hsearch⟩
  · rename_i fault hfault
    obtain ⟨hk, hi, hsearch⟩ := isSearching_of_beginCreating h
    have sick : ¬ saysHealthy reply.result := by simp [saysHealthy, hfault]
    have hw : Keeps n s (s.warn "status check failed, provisioning a new one") :=
      Keeps.of_silent (by simp) rfl
    exact ⟨hw.trans hk, .discards client known reply hs sick (by rw [hi]; rfl) hsearch⟩

theorem advances_of_created {t : Transaction} {client : Client} {reply : Pending CreateResponse}
    (hs : t.stage = .creating client reply)
    (h : created b n t.request client reply.result s = (s', stage)) :
    Keeps n s s' ∧ Advances b t s s'.identity.inst stage := by
  unfold created at h
  split at h
  · rename_i fault hfault
    obtain ⟨rfl, rfl⟩ := Prod.mk.inj h
    exact ⟨Keeps.rfl, .fails client reply hs _ (by rw [hfault]; rfl) rfl⟩
  · rename_i response hresponse
    have hnamed : provisioned reply.result = response.toInstance := by rw [hresponse]; rfl
    split at h
    · rename_i failure hfailure
      obtain ⟨rfl, rfl⟩ := Prod.mk.inj h
      exact ⟨Keeps.rfl, .fails client reply hs _ (hnamed.trans hfailure) rfl⟩
    · rename_i inst hinst
      -- The record comes first, then a warning if the session is another one by now.
      let s₁ := (s.setInstanceIf client.session inst).2
      let s₂ := if (s.setInstanceIf client.session inst).1 then s₁
        else s₁.warn "session rotated during provisioning"
      have h₁ : Keeps n s s₁ := by
        refine Keeps.of_silent (by simp [s₁]) ?_
        rw [Site.setInstanceIf_identity]
        split <;> rfl
      have h₂ : Keeps n s₁ s₂ ∧ s₂.identity = s₁.identity := by
        simp only [s₂]
        split
        · exact ⟨Keeps.rfl, rfl⟩
        · exact ⟨Keeps.of_silent (by simp) rfl, rfl⟩
      have he : beginWriting b n t.request ⟨inst, true, client⟩ s₂ = (s', stage) := h
      obtain ⟨hk, hi, hset⟩ := isSettled_of_beginWriting he
      have hk' := h₁.trans h₂.1
      refine ⟨hk'.trans hk, .provisions client reply hs inst (hnamed.trans hinst) ?_ ?_⟩
      · rw [hi, h₂.2, Site.setInstanceIf_identity]
        split <;> rfl
      · simpa only [selected, hk'.project] using hset

theorem advances_of_wrote {t : Transaction} {files : List File} {reply : Pending WriteResponse}
    (hs : t.stage = .writing target files reply)
    (h : wrote n t.request target files reply.result s = (s', stage)) :
    Keeps n s s' ∧ Advances b t s s'.identity.inst stage := by
  have forget (f : Failure) (s₁ : Site) (hk : Keeps n s s₁) (hi : s₁.identity = s.identity)
      (hnow : s₁.world.now = s.world.now) (hf : writeFailure? reply.result = some f)
      (he : failWrite target f s₁ = (s', stage)) :
      Keeps n s s' ∧ Advances b t s s'.identity.inst stage := by
    obtain ⟨rfl, rfl⟩ := Prod.mk.inj he
    have hc := s₁.clearInstanceIf_identity target.inst.id
    refine ⟨hk.trans (Keeps.of_silent (by simp) (by rw [hc])), ?_⟩
    simp only [Site.clearInstanceIf_world, hnow]
    exact .forgets target files reply hs f hf (by rw [hc, hi])
  unfold wrote at h
  split at h
  · rename_i fault hfault
    exact forget _ s Keeps.rfl rfl rfl (by simp [writeFailure?, hfault]) h
  · rename_i response hresponse
    obtain ⟨hk, hi⟩ := keeps_foldl_warn (n := n) "file write failed" response.failed s
    simp only at h
    split at h
    · rename_i f hf
      exact forget f _ hk hi hk.now (by simp [writeFailure?, hresponse, hf]) h
    · rename_i hf
      obtain ⟨hk', hi', hp⟩ := isPast_of_beginClearing h
      exact ⟨hk.trans hk', .writes target files reply hs (by simp [writeFailure?, hresponse, hf])
        (by rw [hi', hi]) hp⟩

theorem advances_of_readLogs {t : Transaction} {reply : Pending ControlPlane.InstanceLogs}
    (hs : t.stage = .readingLogs target written reply)
    (h : readLogs n target written reply.result s = (s', stage)) :
    Keeps n s s' ∧ Advances b t s s'.identity.inst stage := by
  let s₁ := if reply.result.isOk then s else s.warn "failed to clear logs"
  have h₁ : Keeps n s s₁ ∧ s₁.identity = s.identity := by
    simp only [s₁]
    split
    · exact ⟨Keeps.rfl, rfl⟩
    · exact ⟨Keeps.of_silent (by simp) rfl, rfl⟩
  have he : ({ s₁ with world := (s₁.world.askClear (.transaction n) target.client
      target.inst.id).2 }, TransactionStage.clearingErrors target written
        (s₁.world.askClear (.transaction n) target.client target.inst.id).1) = (s', stage) := h
  obtain ⟨rfl, rfl⟩ := Prod.mk.inj he
  refine ⟨h₁.1.trans (Keeps.of_ask _ _ _), ?_⟩
  exact .clears target written (by simp [hs, TransactionStage.IsPast]) (by simp [result?, hs])
    (by rw [h₁.2]) ⟨rfl, rfl⟩

theorem advances_of_clearedErrors {t : Transaction}
    {reply : Pending ControlPlane.ClearResponse}
    (hs : t.stage = .clearingErrors target written reply)
    (h : clearedErrors target written reply.result s = (s', stage)) :
    Keeps n s s' ∧ Advances b t s s'.identity.inst stage := by
  let s₁ := if reply.result.isOk then s else s.warn "failed to clear runtime errors"
  have h₁ : Keeps n s s₁ ∧ s₁.identity = s.identity := by
    simp only [s₁]
    split
    · exact ⟨Keeps.rfl, rfl⟩
    · exact ⟨Keeps.of_silent (by simp) rfl, rfl⟩
  have he : finish (.ok ⟨target.inst, target.fresh, written, target.client⟩) s₁ = (s', stage) := h
  obtain ⟨rfl, rfl⟩ := Prod.mk.inj he
  exact ⟨h₁.1, .clears target written (by simp [hs, TransactionStage.IsPast])
    (by simp [result?, hs]) (by rw [h₁.2]) rfl⟩

/-- What a step does at a stage; only the first in line begins. -/
inductive StepsFrom (b : Blueprint) (n : Nat) (request : Request) (first : Bool) (s : Site)
    (outcome : Outcome) : TransactionStage → Prop
  | queued (free : first = true) (goes : begin b n request s = outcome) :
      StepsFrom b n request first s outcome .queued
  | checking (client : Client) (known : Instance) (reply : Pending ControlPlane.InstanceStatus)
      (goes : checked b n request client known reply.result s = outcome) :
      StepsFrom b n request first s outcome (.checking client known reply)
  | creating (client : Client) (reply : Pending CreateResponse)
      (goes : created b n request client reply.result s = outcome) :
      StepsFrom b n request first s outcome (.creating client reply)
  | writing (target : Ensured) (files : List File) (reply : Pending WriteResponse)
      (goes : wrote n request target files reply.result s = outcome) :
      StepsFrom b n request first s outcome (.writing target files reply)
  | readingLogs (target : Ensured) (written : Nat) (reply : Pending ControlPlane.InstanceLogs)
      (goes : readLogs n target written reply.result s = outcome) :
      StepsFrom b n request first s outcome (.readingLogs target written reply)
  | clearingErrors (target : Ensured) (written : Nat) (reply : Pending ControlPlane.ClearResponse)
      (goes : clearedErrors target written reply.result s = outcome) :
      StepsFrom b n request first s outcome (.clearingErrors target written reply)

theorem stepsFrom_of_step {t : Transaction} {first : Bool} {outcome : Outcome}
    (h : t.step b n first s = some outcome) :
    StepsFrom b n t.request first s outcome t.stage := by
  unfold step at h
  simp only at h
  cases hs : t.stage with
  | queued =>
      simp only [hs, Option.ite_none_right_eq_some, Option.some.injEq] at h
      exact .queued h.1 h.2
  | checking client known reply =>
      simp only [hs, Option.ite_none_right_eq_some, Option.some.injEq] at h
      exact .checking client known reply h.2
  | creating client reply =>
      simp only [hs, Option.ite_none_right_eq_some, Option.some.injEq] at h
      exact .creating client reply h.2
  | writing target files reply =>
      simp only [hs, Option.ite_none_right_eq_some, Option.some.injEq] at h
      exact .writing target files reply h.2
  | readingLogs target written reply =>
      simp only [hs, Option.ite_none_right_eq_some, Option.some.injEq] at h
      exact .readingLogs target written reply h.2
  | clearingErrors target written reply =>
      simp only [hs, Option.ite_none_right_eq_some, Option.some.injEq] at h
      exact .clearingErrors target written reply h.2
  | finished time result => simp [hs] at h

/-- Every step of a transaction is one of those that `Advances` names, and only the first in line
begins. -/
theorem advances_of_step {t : Transaction} {first : Bool}
    (h : t.step b n first s = some (s', stage)) :
    Keeps n s s' ∧ Advances b t s s'.identity.inst stage ∧ (t.stage = .queued → first = true) := by
  have hsteps := stepsFrom_of_step h
  generalize hs : t.stage = place at hsteps
  cases hsteps with
  | queued free goes =>
      obtain ⟨hk, ha⟩ := advances_of_begin hs goes
      exact ⟨hk, ha, fun _ => free⟩
  | checking client known reply goes =>
      obtain ⟨hk, ha⟩ := advances_of_checked hs goes
      exact ⟨hk, ha, nofun⟩
  | creating client reply goes =>
      obtain ⟨hk, ha⟩ := advances_of_created hs goes
      exact ⟨hk, ha, nofun⟩
  | writing target files reply goes =>
      obtain ⟨hk, ha⟩ := advances_of_wrote hs goes
      exact ⟨hk, ha, nofun⟩
  | readingLogs target written reply goes =>
      obtain ⟨hk, ha⟩ := advances_of_readLogs hs goes
      exact ⟨hk, ha, nofun⟩
  | clearingErrors target written reply goes =>
      obtain ⟨hk, ha⟩ := advances_of_clearedErrors hs goes
      exact ⟨hk, ha, nofun⟩

/-! ### The steps that a stage allows -/

namespace Advances

variable {t : Transaction} {s : Site} {after : Option Instance}

/-- A new instance is provisioned, or the transaction fails. -/
theorem of_creating {client : Client} {reply : Pending CreateResponse}
    (h : Advances b t s after stage) (hs : t.stage = .creating client reply) :
    (∃ inst, provisioned reply.result = .ok inst ∧
        after = (if s.identity.session.id = client.session then some inst else s.identity.inst) ∧
        stage.IsSettled ⟨inst, true, client⟩ (selected b t.request true s)) ∨
      ∃ failure, provisioned reply.result = .error failure ∧ after = s.identity.inst ∧
        stage = .finished s.world.now (.error failure) := by
  cases h with
  | provisions client' reply' hs' inst named records settled =>
      obtain ⟨rfl, rfl⟩ : client = client' ∧ reply = reply' := by simpa using hs.symm.trans hs'
      exact .inl ⟨inst, named, records, settled⟩
  | fails client' reply' hs' failure refused keeps =>
      obtain ⟨rfl, rfl⟩ : client = client' ∧ reply = reply' := by simpa using hs.symm.trans hs'
      exact .inr ⟨failure, refused, keeps, rfl⟩
  | clears target written past => simp [hs, TransactionStage.IsPast] at past
  | checks hs' => simp [hs] at hs'
  | creates hs' => simp [hs] at hs'
  | reuses client known reply hs' => simp [hs] at hs'
  | discards client known reply hs' => simp [hs] at hs'
  | writes target files reply hs' => simp [hs] at hs'
  | forgets target files reply hs' => simp [hs] at hs'

/-- The write is over with success, or the transaction fails with it and forgets the instance. -/
theorem of_writing {files : List File} {reply : Pending WriteResponse}
    (h : Advances b t s after stage) (hs : t.stage = .writing target files reply) :
    (writeFailure? reply.result = none ∧ after = s.identity.inst ∧
        stage.IsPast target files.length) ∨
      ∃ failure, writeFailure? reply.result = some failure ∧
        after = (s.identity.inst.filter fun i => i.id ≠ target.inst.id) ∧
        stage = .finished s.world.now (.error failure) := by
  cases h with
  | writes target' files' reply' hs' success keeps past =>
      obtain ⟨rfl, rfl, rfl⟩ : target = target' ∧ files = files' ∧ reply = reply' := by
        simpa using hs.symm.trans hs'
      exact .inl ⟨success, keeps, past⟩
  | forgets target' files' reply' hs' failure failed cleared =>
      obtain ⟨rfl, rfl, rfl⟩ : target = target' ∧ files = files' ∧ reply = reply' := by
        simpa using hs.symm.trans hs'
      exact .inr ⟨failure, failed, cleared, rfl⟩
  | clears target' written past => simp [hs, TransactionStage.IsPast] at past
  | checks hs' => simp [hs] at hs'
  | creates hs' => simp [hs] at hs'
  | reuses client known reply hs' => simp [hs] at hs'
  | discards client known reply hs' => simp [hs] at hs'
  | provisions client reply hs' => simp [hs] at hs'
  | fails client reply hs' => simp [hs] at hs'

theorem of_isPast (h : Advances b t s after stage) (hp : t.stage.IsPast target written) :
    stage.IsPast target written := by
  cases h with
  | clears target' written' past unfinished keeps past' =>
      obtain ⟨rfl, rfl⟩ := past.unique hp
      exact past'
  | checks hs => simp [hs, TransactionStage.IsPast] at hp
  | creates hs => simp [hs, TransactionStage.IsPast] at hp
  | reuses client known reply hs => simp [hs, TransactionStage.IsPast] at hp
  | discards client known reply hs => simp [hs, TransactionStage.IsPast] at hp
  | provisions client reply hs => simp [hs, TransactionStage.IsPast] at hp
  | fails client reply hs => simp [hs, TransactionStage.IsPast] at hp
  | writes target' files' reply hs => simp [hs, TransactionStage.IsPast] at hp
  | forgets target' files' reply hs => simp [hs, TransactionStage.IsPast] at hp

end Advances

end Transaction

end PreviewDeploy
