import PreviewDeploy.Proofs.Encounters
import PreviewDeploy.Proofs.ReadOnlyPaths

/-!
# Whole transactions

A transaction from its place in the line to its end, whatever else happens in the world meanwhile,
as long as nobody else touches the identity or its stored row and the store takes all writes
(`Transaction.Course`).  At each stage it has made the calls and changes that follow from what it
has met (`Transaction.Stands`), so at its end it has done all that follows
(`Transaction.account_of_course`).  Each transaction of an orchestrator takes such a course in
every run in which nobody else touches the identity (`State.course_of_trace`).
-/

namespace PreviewDeploy

open ControlPlane (Fault InstanceStatus CreateResponse WriteResponse)

namespace Transaction

open Encounter (statusCalls clearCalls)

/-- How a transaction stands at a stage: which calls it has made and what it has changed, by what
it has met. -/
inductive Stands (b : Blueprint) (n : Nat) (request : Request) (s : Site) (m : Encounter)
    (t : Site) : TransactionStage → Prop
  | queued (changes : s.Changes n [] none t) : Stands b n request s m t .queued
  | checking {client : Client} {known : Instance} {reply : Pending InstanceStatus}
      (own : client.session = s.identity.session.id)
      (candidate : s.candidate request = some known)
      (changes : s.Changes n (statusCalls n request s client) none t) :
      Stands b n request s m t (.checking client known reply)
  | creating {client : Client} {reply : Pending CreateResponse} {made : List Call}
      (opens : m.Opens b n request s client made) (unfit : m.reused? request s = none)
      (available : ∀ fault, b.env ≠ .failing fault) (changes : s.Changes n made none t) :
      Stands b n request s m t (.creating client reply)
  | writing {target : Ensured} {reply : Pending WriteResponse} {made : List Call}
      (settles : m.Settles b n request s target made)
      (some : m.selection b request target.fresh ≠ [])
      (changes : s.Changes n (made ++ m.writeCalls b n request target) target.record t) :
      Stands b n request s m t (.writing target (m.selection b request target.fresh) reply)
  | readingLogs {target : Ensured} {reply : Pending ControlPlane.InstanceLogs}
      {made : List Call} (clears : request.clearLogs)
      (settles : m.Settles b n request s target made)
      (accepted : m.refusal? b request target.fresh = none)
      (changes : s.Changes n (made ++ m.writeCalls b n request target ++
        [(.transaction n, target.client, .logs target.inst.id true)]) target.record t) :
      Stands b n request s m t
        (.readingLogs target (m.selection b request target.fresh).length reply)
  | clearingErrors {target : Ensured} {reply : Pending ControlPlane.ClearResponse}
      {made : List Call} (settles : m.Settles b n request s target made)
      (accepted : m.refusal? b request target.fresh = none)
      (changes : s.Changes n (made ++ m.writeCalls b n request target ++
        clearCalls n request target) target.record t) :
      Stands b n request s m t
        (.clearingErrors target (m.selection b request target.fresh).length reply)
  | finished {time : Nat} {result : Except Failure Execution}
      (account : Account b n request s m t result) :
      Stands b n request s m t (.finished time result)

variable {b : Blueprint} {n : Nat} {request : Request} {m : Encounter} {s t t' : Site}
  {stage : TransactionStage} {target : Ensured} {client : Client} {made : List Call}

theorem stands_beginClearing (settles : m.Settles b n request s target made)
    (accepted : m.refusal? b request target.fresh = none)
    (changes : s.Changes n (made ++ m.writeCalls b n request target) target.record t)
    (h : beginClearing n request target (m.selection b request target.fresh).length t =
      (t', stage)) : Stands b n request s m t' stage := by
  rw [beginClearing_eq] at h
  by_cases hclear : request.clearLogs
  · simp only [hclear, if_true] at h
    obtain ⟨rfl, rfl⟩ := Prod.mk.inj h
    refine .readingLogs hclear settles accepted ?_
    exact changes.trans (Site.changes_ask changes.sound _ _ _)
  · simp only [hclear, Bool.false_eq_true, if_false] at h
    obtain ⟨rfl, rfl⟩ := Prod.mk.inj h
    refine .finished (.done settles accepted ?_)
    simpa [clearCalls, hclear] using changes

theorem changes_warned (request : Request) (fresh : Bool) (hs : t.IsSound) :
    t.Changes n [] none (warned b request fresh t) := by
  unfold warned warnOfDropped
  simp only
  generalize (Selection.select b.policy request.files fresh t.world.project).dropped = dropped
  have hw := Site.changes_foldl_warn (n := n)
    "policy violation: skipping write to read-only path" dropped hs
  refine Site.Changes.before ?_ hw
  exact .of_quiet hw.sound rfl ⟨rfl, rfl, by simp⟩

theorem stands_beginWriting (settles : m.Settles b n request s target made)
    (project : t.world.project = m.project) (changes : s.Changes n made target.record t)
    (h : beginWriting b n request target t = (t', stage)) : Stands b n request s m t' stage := by
  have hselected : selected b request target.fresh t = m.selection b request target.fresh := by
    rw [selected, project, Encounter.selection]
  have hw := changes_warned (b := b) (n := n) request target.fresh changes.sound
  have hchanges : s.Changes n made target.record (warned b request target.fresh t) :=
    changes.after hw
  rw [beginWriting_eq] at h
  simp only [hselected] at h
  by_cases hnone : m.selection b request target.fresh = []
  · have accepted : m.refusal? b request target.fresh = none := by
      simp [Encounter.refusal?, hnone]
    refine stands_beginClearing settles accepted ?_ (t := warned b request target.fresh t) ?_
    · simpa [Encounter.writeCalls, hnone] using hchanges
    · simpa [hnone] using h
  · simp only [List.isEmpty_iff, hnone, if_false] at h
    obtain ⟨rfl, rfl⟩ := Prod.mk.inj h
    refine .writing settles hnone ?_
    rw [Encounter.writeCalls, if_neg hnone]
    exact hchanges.trans (Site.changes_ask hchanges.sound _ _ _)

theorem stands_beginCreating (own : client.session = s.identity.session.id)
    (unfit : m.reused? request s = none)
    (changes : s.Changes n (statusCalls n request s client) none t)
    (h : beginCreating b n client t = (t', stage)) : Stands b n request s m t' stage := by
  have hm : s.Changes n (statusCalls n request s client) none
      { t with world := t.world.mintNonce.2 } :=
    changes.after (Site.changes_mintNonce changes.sound)
  unfold beginCreating at h
  simp only at h
  split at h
  · rename_i fault hfault
    obtain ⟨rfl, rfl⟩ := Prod.mk.inj h
    have henv : b.env = .failing fault := by
      unfold InstanceEnv.forSession at hfault
      split at hfault <;> cases hfault
      assumption
    refine .finished (.missed ⟨own, [], ?_, (List.append_nil _).symm⟩ ?_ hm)
    · rw [unfit]
      exact .failing henv
    · simp [Encounter.ensured, unfit, henv]
  · rename_i vars hvars
    obtain ⟨rfl, rfl⟩ := Prod.mk.inj h
    have opens : m.Opens b n request s client (statusCalls n request s client ++
        [(.transaction n, client, .create (b.creation vars))]) :=
      ⟨own, _, unfit ▸ .once hvars, rfl⟩
    refine .creating opens unfit ?_ (hm.trans (Site.changes_ask hm.sound _ _ _))
    intro fault henv
    simp [InstanceEnv.forSession, henv] at hvars

theorem stands_begin (changes : s.Changes n [] none t)
    (h : begin b n request t = (t', stage)) : Stands b n request s m t' stage := by
  have hc : s.Changes n [] none t.connect.2 := (Site.changes_connect changes.sound).before changes
  have own : t.connect.1.session = s.identity.session.id := by
    rw [Site.session_connect changes.sound.fits, changes.session]
  have hcandidate : (if request.redeploy then none else t.connect.2.identity.inst) =
      s.candidate request := by
    rw [hc.inst]
    rfl
  unfold begin at h
  cases hknown : s.candidate request with
  | some known =>
      simp only [hcandidate, hknown] at h
      obtain ⟨rfl, rfl⟩ := Prod.mk.inj h
      refine .checking own hknown ?_
      rw [statusCalls, hknown]
      exact (Site.changes_ask hc.sound _ _ _).before hc
  | none =>
      simp only [hcandidate, hknown] at h
      have unfit : m.reused? request s = none := by simp [Encounter.reused?, hknown]
      refine stands_beginCreating own unfit ?_ h
      simpa [statusCalls, hknown] using hc

/-- The known instance is reused if its status says so. -/
theorem stands_checked {known : Instance} {reply : Pending InstanceStatus}
    (own : client.session = s.identity.session.id) (candidate : s.candidate request = some known)
    (changes : s.Changes n (statusCalls n request s client) none t)
    (h : checked b n request client known reply.result t = (t', stage)) :
    Stands b n request s (m.hear t (.checking client known reply)) t' stage := by
  unfold checked at h
  split at h
  · rename_i status hstatus
    have hreused : (m.hear t (.checking client known reply)).reused? request s =
        if status.success && status.isHealthy then some known else none := by
      simp [Encounter.reused?, Encounter.hear, candidate, hstatus, saysHealthy, Option.filter]
    split at h
    · rename_i healthy
      rw [if_pos healthy] at hreused
      let target : Ensured := ⟨known, false, client⟩
      have opens : (m.hear t (.checking client known reply)).Opens b n request s client
          (statusCalls n request s client) :=
        ⟨own, [], hreused ▸ .reused known, (List.append_nil _).symm⟩
      have obtained : (m.hear t (.checking client known reply)).Obtains b request s known false :=
        Encounter.obtains_iff.mpr (Encounter.ensured_eq_ok.mpr (.inl ⟨hreused, rfl⟩))
      have hchanges : s.Changes n (statusCalls n request s client) target.record t := changes
      exact stands_beginWriting ⟨opens, obtained⟩ rfl hchanges h
    · rename_i sick
      rw [if_neg sick] at hreused
      exact stands_beginCreating own hreused changes h
  · rename_i fault hfault
    have unfit : (m.hear t (.checking client known reply)).reused? request s = none := by
      simp [Encounter.reused?, Encounter.hear, candidate, hfault, saysHealthy, Option.filter]
    have hw := Site.changes_warn (n := n) changes.sound
      "status check failed, provisioning a new one"
    exact stands_beginCreating own unfit (changes.after hw) h

/-- A new instance is recorded, since the session is still the one of the client. -/
theorem stands_created {reply : Pending CreateResponse}
    (opens : m.Opens b n request s client made) (unfit : m.reused? request s = none)
    (available : ∀ fault, b.env ≠ .failing fault) (changes : s.Changes n made none t)
    (h : created b n request client reply.result t = (t', stage)) :
    Stands b n request s (m.hear t (.creating client reply)) t' stage := by
  let m' := m.hear t (.creating client reply)
  have opens' : m'.Opens b n request s client made := opens.congr rfl
  have hensured : m'.ensured b request s =
      (provisioned reply.result).map fun inst => (inst, true) := by
    cases henv : b.env with
    | failing fault => exact absurd henv (available fault)
    | vars fixed proxy =>
        have unfit' : m'.reused? request s = none := unfit
        simp only [Encounter.ensured, unfit', henv]
        rfl
  unfold created at h
  split at h
  · rename_i fault hfault
    obtain ⟨rfl, rfl⟩ := Prod.mk.inj h
    refine .finished (.missed opens' ?_ changes)
    rw [hensured, hfault]
    rfl
  · rename_i response hresponse
    split at h
    · rename_i failure hfailure
      obtain ⟨rfl, rfl⟩ := Prod.mk.inj h
      refine .finished (.missed opens' ?_ changes)
      rw [hensured, hresponse, provisioned, hfailure]
      rfl
    · rename_i inst hinst
      have current : t.identity.session.id = client.session := by
        rw [changes.session, opens.own]
      have hset := Site.changes_setInstanceIf (n := n) changes.sound inst current
      have hrecorded : s.Changes n made (Ensured.record ⟨inst, true, client⟩)
          (t.setInstanceIf client.session inst).2 := by
        simpa [Ensured.record] using changes.trans hset
      have hfst : (t.setInstanceIf client.session inst).1 = true := by simp [current]
      simp only [hfst, if_true] at h
      refine stands_beginWriting ⟨opens', Encounter.obtains_iff.mpr ?_⟩ ?_ hrecorded h
      · rw [hensured, hresponse, provisioned, hinst]
        rfl
      · exact (t.setInstanceIf_world client.session inst).2.1

/-- After a write that has failed the instance is forgotten. -/
theorem stands_wrote {reply : Pending WriteResponse}
    (settles : m.Settles b n request s target made)
    (some : m.selection b request target.fresh ≠ [])
    (changes : s.Changes n (made ++ m.writeCalls b n request target) target.record t)
    (h : wrote n request target (m.selection b request target.fresh) reply.result t =
      (t', stage)) :
    Stands b n request s
      (m.hear t (.writing target (m.selection b request target.fresh) reply)) t' stage := by
  let m' := m.hear t (.writing target (m.selection b request target.fresh) reply)
  have settles' : m'.Settles b n request s target made := settles.write reply.result
  have changes' : s.Changes n (made ++ m'.writeCalls b n request target) target.record t := changes
  have hrefusal : m'.refusal? b request target.fresh = writeFailure? reply.result := if_neg some
  have forgets {failure : Failure} {t₁ : Site} (hw : t.Changes n [] none t₁)
      (hf : writeFailure? reply.result = .some failure)
      (he : failWrite target failure t₁ = (t', stage)) : Stands b n request s m' t' stage := by
    obtain ⟨rfl, rfl⟩ := Prod.mk.inj he
    -- Nobody else has touched the identity, so the known instance is the one to forget.
    have hinst : t₁.identity.inst = .some target.inst := by
      rw [hw.inst, Option.getD_none, changes.inst]
      exact Encounter.inst_of_obtains settles.obtained
    have hclear := Site.changes_clearInstanceIf (n := n) hw.sound hinst
    refine .finished (.refused settles' (hrefusal.trans hf) ?_)
    simpa using (changes'.after hw).trans hclear
  unfold wrote at h
  split at h
  · rename_i fault hfault
    exact forgets (.refl changes.sound) (by rw [hfault]; rfl) h
  · rename_i response hresponse
    have hw := Site.changes_foldl_warn (n := n) "file write failed" response.failed changes.sound
    simp only at h
    split at h
    · rename_i failure hfailure
      exact forgets hw (by rw [hresponse]; exact hfailure) h
    · rename_i hfailure
      have accepted : m'.refusal? b request target.fresh = none := by
        rw [hrefusal, hresponse]
        exact hfailure
      exact stands_beginClearing settles' accepted (changes'.after hw) h

theorem stands_readLogs {reply : Pending ControlPlane.InstanceLogs} (clears : request.clearLogs)
    (settles : m.Settles b n request s target made)
    (accepted : m.refusal? b request target.fresh = none)
    (changes : s.Changes n (made ++ m.writeCalls b n request target ++
      [(.transaction n, target.client, .logs target.inst.id true)]) target.record t)
    (h : readLogs n target (m.selection b request target.fresh).length reply.result t =
      (t', stage)) : Stands b n request s m t' stage := by
  let t₁ := if reply.result.isOk then t else t.warn "failed to clear logs"
  have hw : t.Changes n [] none t₁ :=
    Site.changes_warnIf changes.sound reply.result.isOk "failed to clear logs"
  have he : ({ t₁ with world := (t₁.world.askClear (.transaction n) target.client
      target.inst.id).2 }, TransactionStage.clearingErrors target
        (m.selection b request target.fresh).length
        (t₁.world.askClear (.transaction n) target.client target.inst.id).1) = (t', stage) := h
  obtain ⟨rfl, rfl⟩ := Prod.mk.inj he
  refine .clearingErrors settles accepted ?_
  have hcalls : made ++ m.writeCalls b n request target ++ clearCalls n request target =
      made ++ m.writeCalls b n request target ++
        [(.transaction n, target.client, .logs target.inst.id true)] ++
        [(.transaction n, target.client, .clearErrors target.inst.id)] := by
    simp [clearCalls, clears]
  rw [hcalls]
  exact (changes.after hw).trans (Site.changes_ask hw.sound _ _ _)

theorem stands_clearedErrors {reply : Pending ControlPlane.ClearResponse}
    (settles : m.Settles b n request s target made)
    (accepted : m.refusal? b request target.fresh = none)
    (changes : s.Changes n (made ++ m.writeCalls b n request target ++
      clearCalls n request target) target.record t)
    (h : clearedErrors target (m.selection b request target.fresh).length reply.result t =
      (t', stage)) : Stands b n request s m t' stage := by
  have hw := Site.changes_warnIf (n := n) changes.sound reply.result.isOk
    "failed to clear runtime errors"
  obtain ⟨rfl, rfl⟩ := Prod.mk.inj h
  exact .finished (.done settles accepted (changes.after hw))

/-- A transaction stands at each stage as what it has met lets it. -/
theorem Stands.step {first : Bool} (h : Stands b n request s m t stage) {stage' : TransactionStage}
    (goes : Transaction.step b n first ⟨request, stage⟩ t = some (t', stage')) :
    Stands b n request s (m.hear t stage) t' stage' := by
  have hsteps := stepsFrom_of_step goes
  cases h with
  | queued changes =>
      cases hsteps with
      | queued free goes => exact stands_begin changes goes
  | checking own candidate changes =>
      cases hsteps with
      | checking client known reply goes => exact stands_checked own candidate changes goes
  | creating opens unfit available changes =>
      cases hsteps with
      | creating client reply goes => exact stands_created opens unfit available changes goes
  | writing settles some changes =>
      cases hsteps with
      | writing target files reply goes => exact stands_wrote settles some changes goes
  | readingLogs clears settles accepted changes =>
      cases hsteps with
      | readingLogs target written reply goes =>
          exact stands_readLogs clears settles accepted changes goes
  | clearingErrors settles accepted changes =>
      cases hsteps with
      | clearingErrors target written reply goes =>
          exact stands_clearedErrors settles accepted changes goes
  | finished account => cases hsteps

theorem Stands.aside (h : Stands b n request s m t stage) (elsewhere : t.Changes n [] none t') :
    Stands b n request s m t' stage := by
  cases h with
  | queued changes => exact .queued (changes.after elsewhere)
  | checking own candidate changes => exact .checking own candidate (changes.after elsewhere)
  | creating opens unfit available changes =>
      exact .creating opens unfit available (changes.after elsewhere)
  | writing settles some changes => exact .writing settles some (changes.after elsewhere)
  | readingLogs clears settles accepted changes =>
      exact .readingLogs clears settles accepted (changes.after elsewhere)
  | clearingErrors settles accepted changes =>
      exact .clearingErrors settles accepted (changes.after elsewhere)
  | finished account =>
      cases account with
      | done settles accepted changes =>
          exact .finished (.done settles accepted (changes.after elsewhere))
      | missed opens missing changes =>
          exact .finished (.missed opens missing (changes.after elsewhere))
      | refused settles refused changes =>
          exact .finished (.refused settles refused (changes.after elsewhere))

theorem Stands.sound (h : Stands b n request s m t stage) : t.IsSound := by
  cases h with
  | queued changes => exact changes.sound
  | checking _ _ changes => exact changes.sound
  | creating _ _ _ changes => exact changes.sound
  | writing _ _ changes => exact changes.sound
  | readingLogs _ _ _ changes => exact changes.sound
  | clearingErrors _ _ changes => exact changes.sound
  | finished account =>
      cases account with
      | done _ _ changes => exact changes.sound
      | missed _ _ changes => exact changes.sound
      | refused _ _ changes => exact changes.sound

/-! ### To the end -/

/-- How many steps a transaction can make at most. -/
def stepsLeft : TransactionStage → Nat
  | .queued => 6
  | .checking .. => 5
  | .creating .. => 4
  | .writing .. => 3
  | .readingLogs .. => 2
  | .clearingErrors .. => 1
  | .finished .. => 0

theorem stepsLeft_beginClearing {written : Nat} :
    stepsLeft (beginClearing n request target written t).2 ≤ 2 := by
  rw [beginClearing_eq]
  split <;> simp [stepsLeft, finish]

theorem stepsLeft_beginWriting : stepsLeft (beginWriting b n request target t).2 ≤ 3 := by
  rw [beginWriting_eq]
  simp only
  split
  · exact Nat.le_succ_of_le stepsLeft_beginClearing
  · exact Nat.le_refl 3

theorem stepsLeft_beginCreating : stepsLeft (beginCreating b n client t).2 ≤ 4 := by
  unfold beginCreating
  simp only
  split <;> simp [stepsLeft, finish]

theorem stepsLeft_begin : stepsLeft (begin b n request t).2 ≤ 5 := by
  unfold begin
  simp only
  split
  · exact Nat.le_refl 5
  · exact Nat.le_succ_of_le stepsLeft_beginCreating

theorem stepsLeft_checked {known : Instance} {result : Except Fault InstanceStatus} :
    stepsLeft (checked b n request client known result t).2 ≤ 4 := by
  unfold checked
  split
  · split
    · exact Nat.le_succ_of_le stepsLeft_beginWriting
    · exact stepsLeft_beginCreating
  · exact stepsLeft_beginCreating

theorem stepsLeft_created {result : Except Fault CreateResponse} :
    stepsLeft (created b n request client result t).2 ≤ 3 := by
  unfold created
  split
  · exact Nat.zero_le 3
  · split
    · exact Nat.zero_le 3
    · exact stepsLeft_beginWriting

theorem stepsLeft_wrote {files : List File} {result : Except Fault WriteResponse} :
    stepsLeft (wrote n request target files result t).2 ≤ 2 := by
  unfold wrote
  split
  · exact Nat.zero_le 2
  · simp only
    split
    · exact Nat.zero_le 2
    · exact stepsLeft_beginClearing

/-- The first transaction in line goes on once the reply that it waits for has come, and comes
nearer to its end. -/
theorem exists_step_of_due {x : Transaction} (going : x.result? = none)
    (come : ∀ due, x.due? = some due → due ≤ t.world.now) :
    ∃ t' stage', x.step b n true t = some (t', stage') ∧ stepsLeft stage' < stepsLeft x.stage := by
  unfold due? at come
  unfold step
  simp only
  cases hstage : x.stage with
  | queued => exact ⟨_, _, rfl, Nat.lt_succ_of_le stepsLeft_begin⟩
  | checking client known reply =>
      simp only [hstage, Option.some.injEq, forall_eq'] at come
      exact ⟨_, _, if_pos come, Nat.lt_succ_of_le stepsLeft_checked⟩
  | creating client reply =>
      simp only [hstage, Option.some.injEq, forall_eq'] at come
      exact ⟨_, _, if_pos come, Nat.lt_succ_of_le stepsLeft_created⟩
  | writing target files reply =>
      simp only [hstage, Option.some.injEq, forall_eq'] at come
      exact ⟨_, _, if_pos come, Nat.lt_succ_of_le stepsLeft_wrote⟩
  | readingLogs target written reply =>
      simp only [hstage, Option.some.injEq, forall_eq'] at come
      exact ⟨_, _, if_pos come, Nat.lt_succ_self 1⟩
  | clearingErrors target written reply =>
      simp only [hstage, Option.some.injEq, forall_eq'] at come
      exact ⟨_, _, if_pos come, Nat.zero_lt_one⟩
  | finished time result => simp [result?, hstage] at going

/-- The course of the `n`-th transaction from a site `s`, with what it has met: its steps, and
whatever else happens in between without touching the identity, its row and its calls. -/
inductive Course (b : Blueprint) (n : Nat) (request : Request) (s : Site) :
    Encounter → Site → TransactionStage → Prop
  | start (m : Encounter) : Course b n request s m s .queued
  | aside {m : Encounter} {t t' : Site} {stage : TransactionStage}
      (course : Course b n request s m t stage) (elsewhere : t.Changes n [] none t') :
      Course b n request s m t' stage
  | step {m : Encounter} {t t' : Site} {stage stage' : TransactionStage} {first : Bool}
      (course : Course b n request s m t stage)
      (goes : Transaction.step b n first ⟨request, stage⟩ t = some (t', stage')) :
      Course b n request s (m.hear t stage) t' stage'

theorem Course.stands (h : Course b n request s m t stage) (hs : s.IsSound) :
    Stands b n request s m t stage := by
  induction h with
  | start m => exact .queued (.refl hs)
  | aside _ elsewhere ih => exact ih.aside elsewhere
  | step _ goes ih => exact ih.step goes

end Transaction

/-! ### In a run -/

theorem action_mem_of_history {actions : List Action} {s : State} {e : Moment}
    (he : e ∈ s.history actions) : e.action ∈ actions := by
  induction actions generalizing s with
  | nil => cases he
  | cons a actions ih =>
      unfold State.history at he
      split at he
      · obtain he | he := List.mem_append.mp he
        · exact List.mem_cons_of_mem a (ih he)
        · obtain rfl := List.mem_singleton.mp he
          exact List.mem_cons_self ..
      · cases he

namespace State

variable {s t u : State} {h : List Moment} {k : Nat} {x : Transaction}

theorem changes_wakeAll (hs : s.toSite.IsSound) (ts : List Task) :
    s.toSite.Changes k [] none (s.wakeAll ts).toSite := by
  induction ts generalizing s with
  | nil => exact .refl hs
  | cons task ts ih =>
      have hw : s.toSite.Changes k [] none (s.wake task).toSite := by
        refine .of_quiet hs rfl ⟨?_, ?_, by simp⟩
        all_goals
          rw [(s.wake_frame task).1, World.wake]
          split <;> rfl
      exact (ih hw.sound).before hw

theorem course_of_stepTransaction {b : Blueprint} {site : Site} {m : Encounter}
    (hx : s.self.transactions[k]? = some x) (blueprint : s.self.blueprint = b)
    (course : Transaction.Course b k x.request site m s.toSite x.stage) (sound : site.IsSound)
    (hstep : s.stepTransaction k = some u) :
    ∃ m' stage, u.self.transactions[k]? = some { x with stage } ∧
      Transaction.Course b k x.request site m' u.toSite stage := by
  unfold stepTransaction at hstep
  simp only [hx] at hstep
  cases hgoes : x.step s.self.blueprint k (s.self.line.head? = some k) s.toSite with
  | none => simp [hgoes] at hstep
  | some outcome =>
      obtain ⟨site', stage⟩ := outcome
      have course' : Transaction.Course b k x.request site (m.hear s.toSite x.stage) site' stage :=
        course.step (blueprint ▸ hgoes)
      have sound' : site'.IsSound := (course'.stands sound).sound
      simp only [hgoes, Option.some.injEq] at hstep
      subst hstep
      refine ⟨m.hear s.toSite x.stage, stage, ?_, ?_⟩
      · split <;> simp [endTurn, Orchestrator.setTransaction, hx]
      · -- The next in line and the loop that waits are woken, which nobody else notices.
        split
        · refine course'.aside ?_
          unfold endTurn
          exact changes_wakeAll (s := mapSelf _ (mapSelf _ { s with toSite := site' })) sound' _
        · exact course'

/-- In every run in which nobody else touches the identity and its row, a transaction takes its
course. -/
theorem course_of_trace (ht : Trace s h t) (hx : s.self.transactions[k]? = some x)
    (queued : x.stage = .queued) (sound : s.toSite.IsSound)
    (alone : ∀ e ∈ h, e.action ≠ .step (.transaction k) → ∀ u, e.state.perform e.action = some u →
      e.state.toSite.Changes k [] none u.toSite) (m : Encounter) :
    ∃ m' stage, t.self.transactions[k]? = some { x with stage } ∧
      Transaction.Course s.self.blueprint k x.request s.toSite m' t.toSite stage := by
  induction ht with
  | start => exact ⟨m, .queued, by rw [hx, ← queued], .start m⟩
  | @step h t u a ht hp ih =>
      obtain ⟨m', stage, hy, course⟩ := ih fun e he => alone e (List.mem_cons_of_mem _ he)
      by_cases ha : a = .step (.transaction k)
      · subst ha
        exact course_of_stepTransaction (x := { x with stage }) hy (blueprint_of_trace ht).1
          course sound hp
      · refine ⟨m', stage, ?_, course.aside (alone _ (List.mem_cons_self ..) ha u hp)⟩
        cases traffic_of_perform hp with
        | stays _ transactions => rw [transactions, hy]
        | enqueues n l attempt here ready going transactions =>
            rw [transactions, getElem?_concat_of_some hy]
        | advances n y stage' here keeps advances first self =>
            have hn : k ≠ n := by
              rintro rfl
              exact ha rfl
            rw [self, getElem?_advanceSelf_of_ne hn, hy]

end State

namespace Transaction

open State (follow perform stepTransaction oneFile)

variable {b : Blueprint} {n : Nat} {request : Request} {m : Encounter} {s t : Site}
  {stage : TransactionStage}

/-- Whatever happens meanwhile, a transaction goes on whenever the reply that it waits for has
come, at most six times, and then has done what it has met lets it do. -/
theorem account_of_course (hs : s.IsSound) (h : Course b n request s m t stage) :
    (∀ time result, stage = .finished time result → Account b n request s m t result ∧
      result.map (fun exec => (exec.inst, exec.fresh, exec.written)) = m.outcome b request s ∧
      ((∃ exec, result = .ok exec) ↔ ∃ inst fresh, m.Obtains b request s inst fresh ∧
        (m.selection b request fresh = [] ∨ m.Accepts))) ∧
    ((⟨request, stage⟩ : Transaction).result? = none →
      (∀ due, (⟨request, stage⟩ : Transaction).due? = some due → due ≤ t.world.now) →
      ∃ t' stage', Transaction.step b n true ⟨request, stage⟩ t = some (t', stage') ∧
        stepsLeft stage' < stepsLeft stage) := by
  refine ⟨?_, exists_step_of_due⟩
  rintro time result rfl
  cases h.stands hs with
  | finished account => exact ⟨account, account.map_result, account.ok_iff⟩

/-- A transaction that is alone with its steps takes its course. -/
theorem course_of_follow {start s t : State} {actions : List Action} {k steps : Nat}
    {x : Transaction} {result : Except Failure Execution} (hstart : start.IsStart)
    (hs : start.follow actions = some s) (works : s.world.outages = [])
    (hx : s.self.transactions[k]? = some x) (queued : stepsLeft x.stage = 6)
    (ht : s.follow (List.replicate steps (.step (.transaction k))) = some t)
    (ended : t.self.transactions[k]?.bind (·.result?) = some result) :
    s.toSite.IsSound ∧ ∃ m time,
      Course s.self.blueprint k x.request s.toSite m t.toSite (.finished time result) := by
  have queued : x.stage = .queued := by
    generalize x.stage = stage at queued ⊢
    cases stage with
    | queued => rfl
    | _ => cases queued
  have sound : s.toSite.IsSound :=
    ⟨State.fits_of_trace hstart (trace_of_follow hs), by simp [works]⟩
  obtain ⟨m, stage, hy, course⟩ := State.course_of_trace (trace_of_follow ht) hx queued sound
    (fun e he ha => absurd (List.eq_of_mem_replicate (action_mem_of_history he)) ha) default
  rw [hy, Option.bind_some] at ended
  unfold Transaction.result? at ended
  split at ended
  · rename_i time result' hstage
    obtain rfl := Option.some.inj ended
    obtain rfl : stage = .finished time result' := hstage
    exact ⟨sound, m, time, course⟩
  · cases ended

/-- An orchestrator of a stored project, whose first instance falls ill; the logs of the next one
cannot be cleared, and it does not take the last write. -/
def relapsing : State :=
  .start 0 (some "demo") {} {} []
    { project := .ofTemplate [⟨"index.html", "x"⟩, ⟨"src/App.tsx", "v1"⟩]
      script :=
        { status := [⟨0, .ok { success := true, isHealthy := false }⟩]
          write := [⟨0, .ok { success := true }⟩, ⟨0, .ok { success := true }⟩,
            ⟨0, .ok { success := true, results := [⟨"src/App.tsx", false, none⟩] }⟩]
          logs := [⟨0, .error (.network "reset")⟩]
          clear := [⟨0, .error (.network "reset")⟩] }
      store := some {} }

/-- A request for all files that has the logs cleared. -/
def cleanly : Request := { files := [], clearLogs := true }

/-- A first deployment, and a second one that has its transaction in the line. -/
def relapse : List Action :=
  [.call .allFiles, .step (.caller 0), .step (.loop 0), .step (.transaction 0),
    .step (.transaction 0), .step (.transaction 0), .step (.loop 0), .step (.caller 0),
    .call cleanly, .step (.caller 1), .step (.loop 1)]

/-- The second deployment is completed, and a third one has its transaction in the line. -/
def recovery : List Action :=
  List.replicate 6 (.step (.transaction 1)) ++
    [.step (.loop 1), .step (.caller 1), .call oneFile, .step (.caller 2), .step (.loop 2)]

/-- The status is asked for, a new instance is made, recorded and written to, and that its logs
cannot be cleared does not matter. -/
theorem course_of_relapse : ∃ (s t : State) (m : Encounter) (time : Nat) (exec : Execution),
    s.toSite.IsSound ∧
    Course s.self.blueprint 1 cleanly s.toSite m t.toSite (.finished time (.ok exec)) ∧
    s.identity.inst.map (·.id) = some ⟨"run-1"⟩ ∧ t.identity.inst.map (·.id) = some ⟨"run-2"⟩ ∧
    (t.world.state? "demo").map (·.inst) = some t.identity.inst ∧
    (t.toSite.callsOf 1).length = 5 ∧ (t.toSite.callsOf 1).filterMap Call.write? =
      [(.transaction 1, [⟨"index.html", "x"⟩, ⟨"src/App.tsx", "v1"⟩])] := by
  have hrun : ∃ s ∈ relapsing.follow relapse, ∃ x ∈ s.self.transactions[1]?,
      ∃ t ∈ s.follow (List.replicate 6 (.step (.transaction 1))),
      ∃ result ∈ t.self.transactions[1]?.bind (·.result?), decide (result.isOk ∧
        s.world.outages = [] ∧ x.request = cleanly ∧ stepsLeft x.stage = 6 ∧
        s.identity.inst.map (·.id) = some ⟨"run-1"⟩ ∧
        t.identity.inst.map (·.id) = some ⟨"run-2"⟩ ∧
        (t.world.state? "demo").map (·.inst) = some t.identity.inst ∧
        (t.toSite.callsOf 1).length = 5 ∧ (t.toSite.callsOf 1).filterMap Call.write? =
          [(.transaction 1, [⟨"index.html", "x"⟩, ⟨"src/App.tsx", "v1"⟩])]) := by
    rw [relapsing, Project.ofTemplate_eq]
    simp only [relapse, follow, perform, State.step, stepTransaction, step, created, checked,
      beginWriting, Selection.select, Selection.ofCandidates_eq, List.replicate]
    decide +kernel
  obtain ⟨s, hs, x, hx, t, ht, result, hend, h⟩ := hrun
  obtain ⟨hok, works, hrequest, queued, seen⟩ := of_decide_eq_true h
  obtain ⟨sound, m, time, course⟩ := course_of_follow ⟨0, some "demo", {}, {}, [], _, rfl⟩ hs works
    hx queued ht hend
  rw [hrequest] at course
  cases result with
  | ok exec => exact ⟨s, t, m, time, exec, sound, course, seen⟩
  | error failure => cases hok

/-- The healthy instance is forgotten after a file that it did not take. -/
theorem course_of_recovery : ∃ (s t : State) (m : Encounter) (time : Nat) (failure : Failure),
    s.toSite.IsSound ∧
    Course s.self.blueprint 2 oneFile s.toSite m t.toSite (.finished time (.error failure)) ∧
    s.identity.inst.map (·.id) = some ⟨"run-2"⟩ ∧ t.identity.inst = none ∧
    (s.world.state? "demo").map (·.inst) = some s.identity.inst ∧
    (t.world.state? "demo").map (·.inst) = some none ∧
    (t.toSite.callsOf 2).length = 2 ∧
    (t.toSite.callsOf 2).filterMap Call.write? = [(.transaction 2, oneFile.files)] := by
  have hrun : ∃ s ∈ relapsing.follow (relapse ++ recovery), ∃ x ∈ s.self.transactions[2]?,
      ∃ t ∈ s.follow (List.replicate 3 (.step (.transaction 2))),
      ∃ result ∈ t.self.transactions[2]?.bind (·.result?), decide (result.isOk = false ∧
        s.world.outages = [] ∧ x.request = oneFile ∧ stepsLeft x.stage = 6 ∧
        s.identity.inst.map (·.id) = some ⟨"run-2"⟩ ∧ t.identity.inst = none ∧
        (s.world.state? "demo").map (·.inst) = some s.identity.inst ∧
        (t.world.state? "demo").map (·.inst) = some none ∧
        (t.toSite.callsOf 2).length = 2 ∧
        (t.toSite.callsOf 2).filterMap Call.write? = [(.transaction 2, oneFile.files)]) := by
    rw [relapsing, Project.ofTemplate_eq]
    simp only [relapse, recovery, List.cons_append, List.nil_append, follow, perform, State.step,
      stepTransaction, step, created, checked, beginWriting, Selection.select,
      Selection.ofCandidates_eq, List.replicate]
    decide +kernel
  obtain ⟨s, hs, x, hx, t, ht, result, hend, h⟩ := hrun
  obtain ⟨hok, works, hrequest, queued, seen⟩ := of_decide_eq_true h
  obtain ⟨sound, m, time, course⟩ := course_of_follow ⟨0, some "demo", {}, {}, [], _, rfl⟩ hs works
    hx queued ht hend
  rw [hrequest] at course
  cases result with
  | ok exec => cases hok
  | error failure => exact ⟨s, t, m, time, failure, sound, course, seen⟩

theorem account_of_course_of_relapse :
    (∃ (s t : State) (m : Encounter) (time : Nat) (exec : Execution),
      Course s.self.blueprint 1 cleanly s.toSite m t.toSite (.finished time (.ok exec)) ∧
      Account s.self.blueprint 1 cleanly s.toSite m t.toSite (.ok exec) ∧
      s.identity.inst.map (·.id) = some ⟨"run-1"⟩ ∧ t.identity.inst.map (·.id) = some ⟨"run-2"⟩ ∧
      (t.world.state? "demo").map (·.inst) = some t.identity.inst ∧
      (t.toSite.callsOf 1).length = 5 ∧ (t.toSite.callsOf 1).filterMap Call.write? =
        [(.transaction 1, [⟨"index.html", "x"⟩, ⟨"src/App.tsx", "v1"⟩])]) ∧
    ∃ (s t : State) (m : Encounter) (time : Nat) (failure : Failure),
      Course s.self.blueprint 2 oneFile s.toSite m t.toSite (.finished time (.error failure)) ∧
      Account s.self.blueprint 2 oneFile s.toSite m t.toSite (.error failure) ∧
      s.identity.inst.map (·.id) = some ⟨"run-2"⟩ ∧ t.identity.inst = none ∧
      (s.world.state? "demo").map (·.inst) = some s.identity.inst ∧
      (t.world.state? "demo").map (·.inst) = some none ∧
      (t.toSite.callsOf 2).length = 2 ∧
      (t.toSite.callsOf 2).filterMap Call.write? = [(.transaction 2, oneFile.files)] := by
  constructor
  · obtain ⟨s, t, m, time, exec, sound, course, seen⟩ := course_of_relapse
    exact ⟨s, t, m, time, exec, course, ((account_of_course sound course).1 time _ rfl).1, seen⟩
  · obtain ⟨s, t, m, time, failure, sound, course, seen⟩ := course_of_recovery
    exact ⟨s, t, m, time, failure, course, ((account_of_course sound course).1 time _ rfl).1, seen⟩

end Transaction

end PreviewDeploy
