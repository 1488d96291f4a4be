import PreviewDeploy.Proofs.FileSets
import PreviewDeploy.Proofs.TransactionOrder

/-!
# The files of the known instance

An instance is recorded as the known one before its files are written, and an attempt that is
given up goes on writing.  Still a transaction that uses the known instance finds all files in it:
the transaction that recorded it was the last one to do so, has written every file that is not
read-only (`State.IsWhole`) and has ended, and no write has failed since
(`State.complete_of_uses`).  A write of some files only therefore never goes to an instance that
lacks the others.

The invariant (`Complete`) is kept from the moment of the record as long as no write to the
instance fails; a write that fails makes the instance unknown.
-/

namespace PreviewDeploy

/-- What a transaction writes to a new instance: all files of the project that are not
read-only. -/
def State.wholeSelection (s : State) : List File :=
  (Selection.ofCandidates s.self.blueprint.policy s.world.project.allFiles).files

/-- The files of the project that are not read-only, and no others: each path once, with the
contents that it has last. -/
structure State.IsWhole (s : State) (files : List File) : Prop where
  mem_iff : ∀ f, f ∈ files ↔ s.self.blueprint.policy.isReadOnly f.path = false ∧
    lastAt f.path s.world.project.allFiles = some f
  nodup : (files.map (·.path)).Nodup

theorem State.isWhole_wholeSelection (s : State) : s.IsWhole s.wholeSelection where
  mem_iff f := @Selection.mem_files_iff s.self.blueprint.policy [] true s.world.project f
  nodup := Selection.nodup_paths _ [] true _

/-- The call by which a transaction writes files. -/
def writeCall (k : Nat) (target : Ensured) (request : Request) (files : List File) : Call :=
  (.transaction k, target.client, .write target.inst.id files request.commitMessage)

/-- The transaction that records an instance as the known one at a moment, and the name of the
instance, which the transaction has provisioned. -/
def Moment.recorded? (e : Moment) : Option (Nat × InstanceId) :=
  match e.action with
  | .step (.transaction m) =>
    match e.state.self.transactions[m]?.map Transaction.stage with
    | some (.creating client reply) =>
      match provisioned reply.result with
      | .ok inst =>
        if e.state.identity.session.id = client.session then some (m, inst.id) else none
      | .error _ => none
    | _ => none
  | _ => none

theorem Moment.recorded?_eq_some {e : Moment} {m : Nat} {name : InstanceId} :
    e.recorded? = some (m, name) ↔ ∃ t client reply inst, e.action = .step (.transaction m) ∧
      e.state.self.transactions[m]? = some t ∧ t.stage = .creating client reply ∧
      provisioned reply.result = .ok inst ∧ e.state.identity.session.id = client.session ∧
      inst.id = name := by
  constructor
  · intro h
    unfold recorded? at h
    split at h
    · rename_i n haction
      split at h
      · rename_i client reply hstage
        obtain ⟨t, ht, hs⟩ := Option.map_eq_some_iff.mp hstage
        split at h
        · rename_i inst hinst
          simp only [Option.ite_none_right_eq_some, Option.some.injEq, Prod.mk.injEq] at h
          obtain ⟨current, rfl, hname⟩ := h
          exact ⟨t, client, reply, inst, haction, ht, hs, hinst, current, hname⟩
        · cases h
      · cases h
    · cases h
  · rintro ⟨t, client, reply, inst, haction, ht, hs, hinst, current, rfl⟩
    simp [recorded?, haction, ht, hs, hinst, current]

/-- The moment ends the `m`-th transaction's write of files to an instance; it is a failure or
not. -/
def Moment.EndsWrite (e : Moment) (m : Nat) (name : InstanceId) (files : List File)
    (failure : Option Failure) : Prop :=
  ∃ t target reply, e.action = .step (.transaction m) ∧
    e.state.self.transactions[m]? = some t ∧ t.stage = .writing target files reply ∧
    target.inst.id = name ∧ writeFailure? reply.result = failure

/-- The moment ends a write to an instance that has failed. -/
def Moment.FailsWrite (e : Moment) (name : InstanceId) : Prop :=
  ∃ m files failure, e.EndsWrite m name files (some failure)

namespace TransactionStage

/-- What is being written, and to which instance. -/
def writing? : TransactionStage → Option (Ensured × List File)
  | .writing target files _ => some (target, files)
  | _ => none

/-- The transaction is to reuse an instance if it is healthy, or does reuse it. -/
def Uses (inst : Instance) : TransactionStage → Prop
  | .checking _ known _ => known = inst
  | .writing target _ _ => target.fresh = false ∧ target.inst = inst
  | .readingLogs target _ _ => target.fresh = false ∧ target.inst = inst
  | .clearingErrors target _ _ => target.fresh = false ∧ target.inst = inst
  | _ => False

variable {stage : TransactionStage} {target target' : Ensured} {written written' : Nat}
  {files : List File} {inst : Instance}

theorem writing?_eq_some :
    stage.writing? = some (target, files) ↔ ∃ reply, stage = .writing target files reply := by
  cases stage <;> simp [writing?]

theorem IsSearching.not_uses (h : stage.IsSearching) : ¬ stage.Uses inst := by
  cases stage with
  | creating => exact id
  | finished => exact id
  | _ => cases h

theorem IsPast.of_uses (h : stage.IsPast target written) (hu : stage.Uses inst) :
    target.fresh = false ∧ target.inst = inst := by
  cases stage with
  | readingLogs => exact h.1 ▸ hu
  | clearingErrors => exact h.1 ▸ hu
  | _ => first | cases h | cases hu

theorem IsPast.uses {t : Transaction} (h : t.stage.IsPast target written)
    (unfinished : t.result? = none) (hu : target.fresh = false ∧ target.inst = inst) :
    t.stage.Uses inst := by
  cases hs : t.stage with
  | readingLogs => exact (hs ▸ h).1 ▸ hu
  | clearingErrors => exact (hs ▸ h).1 ▸ hu
  | finished => simp [Transaction.result?, hs] at unfinished
  | _ => simp [hs, IsPast] at h

theorem IsSettled.of_uses (h : stage.IsSettled target files) (hu : stage.Uses inst) :
    target.fresh = false ∧ target.inst = inst := by
  cases h with
  | writing => exact hu
  | past _ past => exact past.of_uses hu

theorem IsPast.isUnderWay {t : Transaction} (h : t.stage.IsPast target written)
    (unfinished : t.result? = none) : t.IsUnderWay := by
  unfold Transaction.IsUnderWay State.isFinished
  cases hs : t.stage with
  | readingLogs => exact ⟨nofun, rfl⟩
  | clearingErrors => exact ⟨nofun, rfl⟩
  | finished => simp [Transaction.result?, hs] at unfinished
  | _ => simp [hs, IsPast] at h

/-- What a transaction has come to that has ended after its write. -/
theorem IsPast.result {t : Transaction} {result : Except Failure Execution}
    (h : t.stage.IsPast target written) (ended : t.result? = some result) :
    result = .ok ⟨target.inst, target.fresh, written, target.client⟩ := by
  cases hs : t.stage with
  | finished time result' =>
      simp only [Transaction.result?, hs, Option.some.injEq] at ended
      subst ended
      cases result' with
      | error failure => simp [hs, IsPast] at h
      | ok exec =>
          rw [hs] at h
          exact congrArg Except.ok h
  | _ => simp [Transaction.result?, hs] at ended

theorem Uses.isUnderWay {t : Transaction} (h : t.stage.Uses inst) : t.IsUnderWay := by
  unfold Transaction.IsUnderWay State.isFinished
  cases hs : t.stage with
  | queued => simp [hs, Uses] at h
  | finished => simp [hs, Uses] at h
  | _ => exact ⟨nofun, rfl⟩

end TransactionStage

namespace Transaction

variable {b : Blueprint} {n : Nat} {request : Request} {target target' : Ensured} {s s' : Site}
  {files : List File} {reply : Pending ControlPlane.WriteResponse}

theorem write_of_beginWriting
    (h : beginWriting b n request target s = (s', .writing target' files reply)) :
    ∃ made, s'.world.calls = s.world.calls ++ made ∧
      writeCall n target' request files ∈ made := by
  obtain ⟨hk, -⟩ := keeps_warned (b := b) (n := n) (s := s) request target.fresh
  obtain ⟨made, hmade, -⟩ := hk.calls
  rw [beginWriting_eq] at h
  simp only at h
  split at h
  · obtain ⟨-, -, past⟩ := isPast_of_beginClearing h
    cases past
  · obtain ⟨rfl, hstage⟩ := Prod.mk.inj h
    obtain ⟨rfl, rfl, -⟩ := TransactionStage.writing.inj hstage
    exact ⟨made ++ [writeCall n target request (selected b request target.fresh s)],
      by simp [World.askWrite, hmade, writeCall], by simp⟩

/-- A transaction that comes to wait for the answer to a write has made the call. -/
theorem write_of_step {t : Transaction} {first : Bool}
    (h : t.step b n first s = some (s', .writing target files reply)) :
    ∃ made, s'.world.calls = s.world.calls ++ made ∧
      writeCall n target t.request files ∈ made := by
  obtain ⟨-, advances, -⟩ := advances_of_step h
  cases advances with
  | creates _ _ searching => cases searching
  | discards _ _ _ _ _ _ searching => cases searching
  | writes _ _ _ _ _ _ past => cases past
  | clears _ _ _ _ _ past => cases past
  | reuses client known status checking =>
      simp only [step, checking, Option.ite_none_right_eq_some, Option.some.injEq] at h
      obtain ⟨-, h⟩ := h
      unfold checked at h
      split at h
      · split at h
        · exact write_of_beginWriting h
        · obtain ⟨-, -, searching⟩ := isSearching_of_beginCreating h
          cases searching
      · obtain ⟨-, -, searching⟩ := isSearching_of_beginCreating h
        cases searching
  | provisions client created creating =>
      simp only [step, creating, Option.ite_none_right_eq_some, Option.some.injEq] at h
      obtain ⟨-, h⟩ := h
      unfold Transaction.created at h
      split at h
      · cases h
      · split at h
        · cases h
        · rename_i inst _
          -- To record the instance makes no call.
          let s₁ := (s.setInstanceIf client.session inst).2
          let s₂ := if (s.setInstanceIf client.session inst).1 then s₁
            else s₁.warn "session rotated during provisioning"
          have hcalls : s₂.world.calls = s.world.calls := by
            simp only [s₂]
            split <;> simp [s₁]
          have he : beginWriting b n t.request ⟨inst, true, client⟩ s₂ =
            (s', .writing target files reply) := h
          obtain ⟨made, hmade, hmem⟩ := write_of_beginWriting he
          exact ⟨made, by rw [hmade, hcalls], hmem⟩

end Transaction

namespace Transaction.Advances

open TransactionStage

variable {b : Blueprint} {t : Transaction} {s : Site} {after : Option Instance}
  {stage : TransactionStage} {i : Instance} {target : Ensured} {files : List File} {written : Nat}

theorem of_known (h : Advances b t s after stage) (hi : after = some i) :
    s.identity.inst = some i ∨ ∃ client reply, t.stage = .creating client reply ∧
      provisioned reply.result = .ok i ∧ s.identity.session.id = client.session := by
  cases h with
  | checks _ _ _ _ _ keeps => exact .inl (keeps ▸ hi)
  | creates _ keeps => exact .inl (keeps ▸ hi)
  | reuses _ _ _ _ _ keeps => exact .inl (keeps ▸ hi)
  | discards _ _ _ _ _ keeps => exact .inl (keeps ▸ hi)
  | provisions client reply hs inst named records =>
      split at records
      · rename_i current
        obtain rfl := Option.some.inj (records.symm.trans hi)
        exact .inr ⟨client, reply, hs, named, current⟩
      · exact .inl (records ▸ hi)
  | fails _ _ _ _ _ keeps => exact .inl (keeps ▸ hi)
  | writes _ _ _ _ _ keeps => exact .inl (keeps ▸ hi)
  | forgets target files reply hs failure failed cleared =>
      rw [cleared, Option.filter_eq_some_iff] at hi
      exact .inl hi.1
  | clears _ _ _ _ keeps => exact .inl (keeps ▸ hi)

theorem of_uses (h : Advances b t s after stage) (hu : stage.Uses i) :
    s.identity.inst = some i ∨ t.stage.Uses i := by
  cases h with
  | checks _ known client reply inst => exact .inl (hu ▸ inst)
  | creates _ _ searching => exact absurd hu searching.not_uses
  | reuses client known reply hs healthy keeps settled =>
      rw [hs]
      exact .inr (settled.of_uses hu).2
  | discards _ _ _ _ _ _ searching => exact absurd hu searching.not_uses
  | provisions client reply hs inst named records settled => cases (settled.of_uses hu).1
  | fails => cases hu
  | writes target files reply hs success keeps past =>
      rw [hs]
      exact .inr (past.of_uses hu)
  | forgets => cases hu
  | clears target written past unfinished keeps past' =>
      exact .inr (past.uses unfinished (past'.of_uses hu))

end Transaction.Advances

namespace State

variable {s u t : State} {a : Action} {later : List Moment} {e : Moment} {m j n : Nat}
  {name : InstanceId}

/-- An instance is known, or a transaction uses it. -/
def InUse (s : State) (name : InstanceId) : Prop :=
  (∃ i, s.identity.inst = some i ∧ i.id = name) ∨
    ∃ (k : Nat) (t : Transaction) (i : Instance), s.self.transactions[k]? = some t ∧
      t.stage.Uses i ∧ i.id = name

/-- Since a moment, which recorded an instance, no write to it has failed; its transaction writes
the whole selection of that moment, or has done so, if there is something to write. -/
structure Complete (later : List Moment) (e : Moment) (m : Nat) (name : InstanceId) (t : State) :
    Prop where
  unfailed : ∀ w ∈ later, ¬ w.FailsWrite name
  stage : ∃ x target, t.self.transactions[m]? = some x ∧ target.inst.id = name ∧
    target.fresh = true ∧
      ((∃ reply, x.stage = .writing target e.state.wholeSelection reply) ∨
        x.stage.IsPast target e.state.wholeSelection.length ∧
          (e.state.wholeSelection = [] ∨
            ∃ w ∈ later, w.EndsWrite m name e.state.wholeSelection none))
  asked : ∃ made, t.world.calls = e.state.world.calls ++ made ∧
    (e.state.wholeSelection = [] ∨ ∃ client message,
      (.transaction m, client, .write name e.state.wholeSelection message) ∈ made)

/-! ### What an action does -/

theorem calls_of_perform (hp : s.perform a = some u) :
    ∃ made, u.world.calls = s.world.calls ++ made := by
  cases traffic_of_perform hp with
  | advances n x stage here keeps =>
      obtain ⟨made, hmade, -⟩ := keeps.calls
      exact ⟨made, hmade⟩
  | enqueues n l attempt here ready going transactions line inst calls =>
      exact ⟨[], by simp [calls]⟩
  | stays other transactions line inst calls =>
      obtain ⟨made, hmade, -⟩ := calls
      exact ⟨made, hmade⟩

theorem write_of_stepTransaction {x : Transaction} {target : Ensured} {files : List File}
    {reply : Pending ControlPlane.WriteResponse} (hp : s.stepTransaction n = some u)
    (hx : u.self.transactions[n]? = some x) (hs : x.stage = .writing target files reply) :
    ∃ made, u.world.calls = s.world.calls ++ made ∧
      writeCall n target x.request files ∈ made := by
  obtain ⟨y, site, stage, hy, hstep, hself, -, -, -, hcalls, -⟩ := stepTransaction_cases hp
  rw [hself, getElem?_advanceSelf hy, Option.some.injEq] at hx
  subst hx
  obtain rfl : stage = .writing target files reply := hs
  rw [hcalls]
  exact Transaction.write_of_step (t := y) hstep

/-- A write that fails ends its transaction and makes the instance unknown. -/
theorem not_inUse_of_failsWrite (hj : s.self.Turn j) (hf : Moment.FailsWrite ⟨s, a⟩ name)
    (hp : s.perform a = some u) : ¬ u.InUse name := by
  obtain ⟨n, files, f, t, target, reply, rfl, ht, hstage, hname, hfailed⟩ := hf
  have hway : t.IsUnderWay := by
    unfold Transaction.IsUnderWay isFinished
    simp [hstage]
  cases traffic_of_perform hp with
  | stays other => exact absurd rfl (other n)
  | advances n t' stage here keeps advances first self =>
      obtain rfl : t = t' := Option.some.inj (ht.symm.trans here)
      obtain ⟨failure, hcleared, rfl⟩ : ∃ failure,
          u.identity.inst = (s.identity.inst.filter fun i => i.id ≠ target.inst.id) ∧
            stage = .finished s.world.now (.error failure) := by
        rcases advances.of_writing hstage with ⟨success, -⟩ | ⟨failure, -, h⟩
        · rw [hfailed] at success
          cases success
        · exact ⟨failure, h⟩
      rintro (⟨i, hi, hid⟩ | ⟨k, x, i, hx, huse, -⟩)
      · rw [hcleared, Option.filter_eq_some_iff] at hi
        simp [hid, hname] at hi
      · rw [self] at hx
        rcases of_getElem?_advanceSelf ht hx with ⟨rfl, rfl⟩ | ⟨hne, hx⟩
        · cases huse
        · exact hne ((hj.eq_of_isUnderWay hx huse.isUnderWay).trans
            (hj.eq_of_isUnderWay ht hway).symm)

theorem known_of_perform {i : Instance} (hp : s.perform a = some u)
    (hi : u.identity.inst = some i) :
    s.identity.inst = some i ∨ ∃ m, Moment.recorded? ⟨s, a⟩ = some (m, i.id) := by
  cases traffic_of_perform hp with
  | stays other transactions line inst =>
      rcases inst with h | h
      · exact .inl (h ▸ hi)
      · rw [h] at hi
        cases hi
  | enqueues n l attempt here ready going transactions line inst => exact .inl (inst ▸ hi)
  | advances n t stage here keeps advances first self =>
      rcases advances.of_known hi with h | ⟨client, reply, hs, named, current⟩
      · exact .inl h
      · exact .inr ⟨n, Moment.recorded?_eq_some.mpr
          ⟨t, client, reply, i, rfl, here, hs, named, current, rfl⟩⟩

theorem inUse_of_perform (hp : s.perform a = some u) (hu : u.InUse name) :
    s.InUse name ∨ ∃ m, Moment.recorded? ⟨s, a⟩ = some (m, name) := by
  rcases hu with ⟨i, hi, rfl⟩ | ⟨k, x, i, hx, huse, rfl⟩
  · exact (known_of_perform hp hi).imp_left fun h => .inl ⟨i, h, rfl⟩
  · refine .inl ?_
    cases traffic_of_perform hp with
    | stays other transactions => exact .inr ⟨k, x, i, transactions ▸ hx, huse, rfl⟩
    | enqueues n l attempt here ready going transactions =>
        rcases of_getElem?_concat (transactions ▸ hx) with hx | ⟨-, rfl⟩
        · exact .inr ⟨k, x, i, hx, huse, rfl⟩
        · cases huse
    | advances n t stage here keeps advances first self =>
        rw [self] at hx
        rcases of_getElem?_advanceSelf here hx with ⟨rfl, rfl⟩ | ⟨-, hx⟩
        · rcases advances.of_uses huse with h | h
          · exact .inl ⟨i, h, rfl⟩
          · exact .inr ⟨k, t, i, here, h, rfl⟩
        · exact .inr ⟨k, x, i, hx, huse, rfl⟩

/-- The transaction that records an instance writes the whole selection to it next, if there is
something to write. -/
theorem settled_of_recorded (hr : Moment.recorded? ⟨s, a⟩ = some (m, name))
    (hp : s.perform a = some u) : ∃ x target, u.self.transactions[m]? = some x ∧
      target.inst.id = name ∧ target.fresh = true ∧
      x.stage.IsSettled target s.wholeSelection := by
  obtain ⟨t, client, reply, inst, rfl, ht, hstage, hnamed, -, rfl⟩ :=
    Moment.recorded?_eq_some.mp hr
  cases traffic_of_perform hp with
  | stays other => exact absurd rfl (other m)
  | advances n t' stage here keeps advances first self =>
      obtain rfl : t = t' := Option.some.inj (ht.symm.trans here)
      rcases advances.of_creating hstage with ⟨inst', named, -, settled⟩ | ⟨failure, refused, -⟩
      · obtain rfl : inst = inst' := Except.ok.inj (hnamed.symm.trans named)
        have hsel : Transaction.selected s.self.blueprint t.request true s.toSite =
            s.wholeSelection := by
          simp [Transaction.selected, wholeSelection, Selection.select, Selection.candidates]
        rw [hsel] at settled
        exact ⟨{ t with stage }, ⟨inst, true, client⟩, self ▸ getElem?_advanceSelf ht, rfl, rfl,
          settled⟩
      · rw [hnamed] at refused
        cases refused

theorem complete_of_recorded (hr : Moment.recorded? ⟨s, a⟩ = some (m, name))
    (hp : s.perform a = some u) : Complete [] ⟨s, a⟩ m name u := by
  obtain ⟨x, target, hx, hname, hfresh, settled⟩ := settled_of_recorded hr hp
  generalize hstage : x.stage = stage at settled
  cases settled with
  | writing h reply =>
      obtain ⟨t, _, _, _, rfl, -⟩ := Moment.recorded?_eq_some.mp hr
      obtain ⟨made, hmade, hcall⟩ := write_of_stepTransaction hp hx hstage
      rw [writeCall, hname] at hcall
      exact ⟨by simp, ⟨x, target, hx, hname, hfresh, .inl ⟨reply, hstage⟩⟩, made, hmade,
        .inr ⟨_, _, hcall⟩⟩
  | past h past =>
      obtain ⟨made, hmade⟩ := calls_of_perform hp
      refine ⟨by simp, ⟨x, target, hx, hname, hfresh, .inr ⟨?_, .inl h⟩⟩, made, hmade, .inl h⟩
      rw [hstage, h]
      exact past

theorem inst_of_recorded (hr : Moment.recorded? ⟨s, a⟩ = some (m, name))
    (hp : s.perform a = some u) : ∃ i, u.identity.inst = some i ∧ i.id = name := by
  obtain ⟨t, client, reply, inst, rfl, ht, hstage, hnamed, current, rfl⟩ :=
    Moment.recorded?_eq_some.mp hr
  cases traffic_of_perform hp with
  | stays other => exact absurd rfl (other m)
  | advances n t' stage here keeps advances first self =>
      obtain rfl : t = t' := Option.some.inj (ht.symm.trans here)
      rcases advances.of_creating hstage with ⟨inst', named, records, -⟩ | ⟨failure, refused, -⟩
      · obtain rfl : inst = inst' := Except.ok.inj (hnamed.symm.trans named)
        rw [if_pos current] at records
        exact ⟨inst, records, rfl⟩
      · rw [hnamed] at refused
        cases refused

/-- Every action but a failing write to the instance keeps what is written to it. -/
theorem Complete.step (hc : Complete later e m name s) (hp : s.perform a = some u)
    (hf : ¬ Moment.FailsWrite ⟨s, a⟩ name) : Complete (⟨s, a⟩ :: later) e m name u := by
  obtain ⟨x, target, hx, hname, hfresh, hstage⟩ := hc.stage
  have written (h : e.state.wholeSelection = [] ∨
      ∃ w ∈ later, w.EndsWrite m name e.state.wholeSelection none) :
      e.state.wholeSelection = [] ∨
        ∃ w ∈ (⟨s, a⟩ :: later : List Moment),
          w.EndsWrite m name e.state.wholeSelection none := by
    rcases h with h | ⟨w, hw, h⟩
    · exact .inl h
    · exact .inr ⟨w, List.mem_cons_of_mem _ hw, h⟩
  have asked : ∃ made, u.world.calls = e.state.world.calls ++ made ∧
      (e.state.wholeSelection = [] ∨ ∃ client message,
        (.transaction m, client, .write name e.state.wholeSelection message) ∈ made) := by
    obtain ⟨made, hmade, hasked⟩ := hc.asked
    obtain ⟨more, hmore⟩ := calls_of_perform hp
    refine ⟨made ++ more, by rw [hmore, hmade, List.append_assoc], hasked.imp_right ?_⟩
    rintro ⟨client, message, hcall⟩
    exact ⟨client, message, List.mem_append_left _ hcall⟩
  -- If the transaction that has recorded the instance does not go on, nothing is to be shown.
  have stays (h : u.self.transactions[m]? = some x) :
      Complete (⟨s, a⟩ :: later) e m name u := by
    refine ⟨?_, ⟨x, target, h, hname, hfresh, hstage.imp_right fun h => ⟨h.1, written h.2⟩⟩, asked⟩
    intro w hw
    rcases List.mem_cons.mp hw with rfl | hw
    · exact hf
    · exact hc.unfailed w hw
  cases traffic_of_perform hp with
  | stays other transactions => exact stays (transactions ▸ hx)
  | enqueues n l attempt here ready going transactions =>
      refine stays ?_
      rw [transactions]
      exact getElem?_concat_of_some hx
  | advances n x' stage here keeps advances first self =>
      by_cases hn : m = n
      · subst hn
        obtain rfl : x = x' := Option.some.inj (hx.symm.trans here)
        refine ⟨?_, ⟨{ x with stage }, target, self ▸ getElem?_advanceSelf hx, hname, hfresh, ?_⟩,
          asked⟩
        · intro w hw
          rcases List.mem_cons.mp hw with rfl | hw
          · exact hf
          · exact hc.unfailed w hw
        · rcases hstage with ⟨reply, hwriting⟩ | ⟨hpast, hwritten⟩
          · rcases advances.of_writing hwriting with ⟨success, -, hpast⟩ | ⟨failure, hfailed, -⟩
            · exact .inr ⟨hpast, .inr ⟨⟨s, .step (.transaction m)⟩, List.mem_cons_self ..,
                x, target, reply, rfl, hx, hwriting, hname, success⟩⟩
            · exact absurd ⟨m, _, failure, x, target, reply, rfl, hx, hwriting, hname, hfailed⟩ hf
          · exact .inr ⟨advances.of_isPast hpast, written hwritten⟩
      · refine stays ?_
        rw [self, getElem?_advanceSelf_of_ne hn, hx]

/-! ### What transactions find in the instance they use -/

theorem complete_of_trace {h : List Moment} (hs : s.IsStart) (ht : Trace s h t) :
    ∀ later e earlier m name, h = later ++ e :: earlier → e.recorded? = some (m, name) →
      (∀ w ∈ later, ∀ n, w.recorded? ≠ some (n, name)) → t.InUse name →
        Complete later e m name t := by
  induction ht with
  | start =>
      intro later e earlier m name h
      simp at h
  | step ht hp ih =>
      intro later e earlier m name h hrec hlast huse
      rcases List.cons_eq_append_iff.mp h with ⟨rfl, h⟩ | ⟨later, rfl, rfl⟩
      · obtain ⟨rfl, -⟩ := List.cons.inj h
        exact complete_of_recorded hrec hp
      · rcases inUse_of_perform hp huse with hbefore | ⟨n, hrec'⟩
        · obtain ⟨j, hj, -⟩ := calls_of_trace hs ht
          have hc := ih later e earlier m name rfl hrec
            (fun w hw => hlast w (List.mem_cons_of_mem _ hw)) hbefore
          exact hc.step hp fun hf => not_inUse_of_failsWrite hj hf hp huse
        · exact absurd hrec' (hlast _ (List.mem_cons_self ..) n)

/-- Whenever a transaction uses an instance that was recorded before, the transaction that was the
last to record it has provisioned it and ended, after it wrote the files of that moment that are
not read-only, unless there were none; and no write to the instance has failed since. -/
theorem complete_of_uses {earlier : List Moment} {k : Nat} {x : Transaction} {inst : Instance}
    (hs : s.IsStart) (ht : Trace s (later ++ e :: earlier) t)
    (hrec : e.recorded? = some (m, inst.id))
    (hlast : ∀ w ∈ later, ∀ n, w.recorded? ≠ some (n, inst.id))
    (hx : t.self.transactions[k]? = some x) (huse : x.stage.Uses inst) :
    ∃ files made, e.state.IsWhole files ∧ t.world.calls = e.state.world.calls ++ made ∧
      (∃ y exec, t.self.transactions[m]? = some y ∧ y.result? = some (.ok exec) ∧
        exec.inst.id = inst.id ∧ exec.fresh = true ∧ exec.written = files.length) ∧
      (files = [] ∨
        (∃ client message, (.transaction m, client, .write inst.id files message) ∈ made) ∧
          ∃ w ∈ later, w.EndsWrite m inst.id files none) ∧
      ∀ w ∈ later, ¬ w.FailsWrite inst.id := by
  have hc := complete_of_trace hs ht later e earlier m inst.id rfl hrec hlast
    (.inr ⟨k, x, inst, hx, huse, rfl⟩)
  obtain ⟨j, hj, -⟩ := calls_of_trace hs ht
  obtain ⟨y, target, hy, hname, hfresh, hstage⟩ := hc.stage
  obtain ⟨made, hmade, hasked⟩ := hc.asked
  -- It is the turn of the transaction that uses the instance, so the other one is not under way.
  have hover (hway : y.IsUnderWay) (hu : ¬ y.stage.Uses inst) : False := by
    obtain rfl : m = k := (hj.eq_of_isUnderWay hy hway).trans
      (hj.eq_of_isUnderWay hx huse.isUnderWay).symm
    rw [hx, Option.some.injEq] at hy
    exact hu (hy ▸ huse)
  rcases hstage with ⟨reply, hwriting⟩ | ⟨hpast, hwritten⟩
  · refine (hover ?_ ?_).elim
    · simp [Transaction.IsUnderWay, isFinished, hwriting]
    · simp [TransactionStage.Uses, hwriting, hfresh]
  · cases hend : y.result? with
    | none =>
        refine (hover (hpast.isUnderWay hend) fun hu => ?_).elim
        rw [(hpast.of_uses hu).1] at hfresh
        cases hfresh
    | some result =>
        rw [hpast.result hend] at hend
        refine ⟨_, made, isWhole_wholeSelection e.state, hmade,
          ⟨y, _, hy, hend, hname, hfresh, rfl⟩, ?_, hc.unfailed⟩
        rcases hasked with hnone | hcall
        · exact .inl hnone
        · exact hwritten.imp_right fun hends => ⟨hcall, hends⟩

/-- A deployment writes all files to a new instance, and the next one a single file to the same
instance. -/
def reuse : List Action :=
  [.call .allFiles, .step (.caller 0), .step (.loop 0), .step (.transaction 0),
    .step (.transaction 0), .step (.transaction 0), .step (.loop 0), .step (.caller 0),
    .call oneFile, .step (.caller 1), .step (.loop 1), .step (.transaction 1),
    .step (.transaction 1)]

/-- The single file goes to an instance that has the other one too. -/
theorem complete_of_uses_of_reuse :
    ∃ later e earlier t inst x client reply files made,
      Trace furnished (later ++ e :: earlier) t ∧ e.recorded? = some (0, inst.id) ∧
      t.self.transactions[1]? = some x ∧
      x.stage = .writing ⟨inst, false, client⟩ oneFile.files reply ∧
      e.state.IsWhole files ∧ ⟨"index.html", "x"⟩ ∈ files ∧
      t.world.calls = e.state.world.calls ++ made ∧
      (∃ client message, (.transaction 0, client, .write inst.id files message) ∈ made) ∧
      ∀ w ∈ later, ¬ w.FailsWrite inst.id := by
  have hrecords : (furnished.history reuse).map (fun w => (w.recorded?,
      w.state.self.blueprint.policy.isReadOnly "index.html",
      lastAt "index.html" w.state.world.project.allFiles)) =
      List.replicate 8 (none, false, some ⟨"index.html", "x"⟩) ++
        (some (0, ⟨"run-1"⟩), false, some ⟨"index.html", "x"⟩) ::
          List.replicate 4 (none, false, some ⟨"index.html", "x"⟩) := by
    rw [furnished, Project.ofTemplate_eq]
    simp only [reuse, history, perform, step, stepTransaction, Transaction.step,
      Transaction.created, Transaction.checked, Transaction.beginWriting, Selection.select,
      Selection.ofCandidates_eq]
    decide +kernel
  have hrun : ∃ t ∈ furnished.follow reuse, ∃ x ∈ t.self.transactions[1]?,
      ∃ w ∈ x.stage.writing?, decide (
        w.1.inst.id = ⟨"run-1"⟩ ∧ w.1.fresh = false ∧ w.2 = oneFile.files) := by
    rw [furnished, Project.ofTemplate_eq]
    simp only [reuse, follow, perform, step, stepTransaction, Transaction.step,
      Transaction.created, Transaction.checked, Transaction.beginWriting, Selection.select,
      Selection.ofCandidates_eq]
    decide +kernel
  obtain ⟨t, ht, x, hx, ⟨⟨inst, fresh, client⟩, files⟩, hwriting, h⟩ := hrun
  obtain ⟨hname, rfl, rfl⟩ := of_decide_eq_true h
  obtain ⟨reply, hstage⟩ := TransactionStage.writing?_eq_some.mp hwriting
  obtain ⟨later, rest, hsplit, hnone, hrest⟩ := List.map_eq_append_iff.mp hrecords
  obtain ⟨e, earlier, rfl, he, -⟩ := List.map_eq_cons_iff.mp hrest
  obtain ⟨hrec, hpage⟩ := Prod.mk.inj he
  rw [← hname] at hrec
  have ht := trace_of_follow ht
  rw [hsplit] at ht
  have huses : x.stage.Uses inst := by
    rw [hstage]
    exact ⟨rfl, rfl⟩
  have hlast (w : Moment) (hw : w ∈ later) (n : Nat) : w.recorded? ≠ some (n, inst.id) := by
    have hmem := hnone ▸ List.mem_map_of_mem hw
    rw [(Prod.mk.inj (List.eq_of_mem_replicate hmem)).1]
    simp
  obtain ⟨files, made, hwhole, hmade, -, hwritten, hfails⟩ :=
    complete_of_uses isStart_furnished ht hrec hlast hx huses
  have hmem : ⟨"index.html", "x"⟩ ∈ files := (hwhole.mem_iff _).mpr (Prod.mk.inj hpage)
  rcases hwritten with rfl | ⟨hcall, -⟩
  · cases hmem
  · exact ⟨later, e, earlier, t, inst, x, client, reply, files, made, ht, hrec, hx, hstage,
      hwhole, hmem, hmade, hcall, hfails⟩

end State

end PreviewDeploy
