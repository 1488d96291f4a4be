import PreviewDeploy.Proofs.FileSets
import PreviewDeploy.Proofs.InstanceFiles
import PreviewDeploy.Proofs.StoredIdentity

/-!
# The stored instance

A restart takes up the instance that is stored, and if it is healthy writes to it only what is
asked for.  An instance is stored as soon as it is recorded, before its files are written, so
what a restart takes up is not always complete.  It lacks files exactly as long as the transaction
that recorded it is still writing them (`State.filled_iff_of_stored`); if the process ends then,
nothing writes the others any more.
-/

namespace PreviewDeploy

/-! ### Writes that are over -/

namespace TransactionStage

/-- The transaction has written its files, or failed, or had none to write. -/
def IsOver : TransactionStage → Prop
  | .readingLogs .. | .clearingErrors .. | .finished .. => True
  | _ => False

variable {stage : TransactionStage} {target : Ensured} {written : Nat} {files : List File}

theorem IsPast.isOver (h : stage.IsPast target written) : stage.IsOver := by
  cases stage with
  | readingLogs => trivial
  | clearingErrors => trivial
  | finished => trivial
  | _ => cases h

theorem IsOver.ne_writing (h : stage.IsOver) (reply : Pending ControlPlane.WriteResponse) :
    stage ≠ .writing target files reply := by
  rintro rfl
  exact h

end TransactionStage

theorem Transaction.Advances.isOver {b : Blueprint} {t : Transaction} {s : Site}
    {after : Option Instance} {stage : TransactionStage} (h : Advances b t s after stage)
    (hover : t.stage.IsOver) : stage.IsOver := by
  cases h with
  | clears target written past unfinished keeps past' => exact past'.isOver
  | checks hs => simp [hs, TransactionStage.IsOver] at hover
  | creates hs => simp [hs, TransactionStage.IsOver] at hover
  | reuses client known reply hs => simp [hs, TransactionStage.IsOver] at hover
  | discards client known reply hs => simp [hs, TransactionStage.IsOver] at hover
  | provisions client reply hs => simp [hs, TransactionStage.IsOver] at hover
  | fails => trivial
  | writes target files reply hs => simp [hs, TransactionStage.IsOver] at hover
  | forgets => trivial

namespace State

variable {s u t : State} {a : Action} {h later earlier : List Moment} {e : Moment} {m : Nat}
  {name : InstanceId} {p : String}

/-- The `m`-th transaction has come to an end of its write. -/
def HasEndedWrite (m : Nat) (s : State) : Prop :=
  ∃ x, s.self.transactions[m]? = some x ∧ x.stage.IsOver

/-- The `m`-th transaction waits for the answer to its write. -/
def IsWriting (m : Nat) (s : State) : Prop :=
  ∃ x target files reply, s.self.transactions[m]? = some x ∧
    x.stage = .writing target files reply

theorem HasEndedWrite.not_isWriting (hm : s.HasEndedWrite m) : ¬ s.IsWriting m := by
  obtain ⟨x, hx, hover⟩ := hm
  rintro ⟨y, target, files, reply, hy, hwriting⟩
  obtain rfl : x = y := Option.some.inj (hx.symm.trans hy)
  exact hover.ne_writing reply hwriting

theorem hasEndedWrite_of_perform (hm : s.HasEndedWrite m) (hp : s.perform a = some u) :
    u.HasEndedWrite m := by
  obtain ⟨x, hx, hover⟩ := hm
  cases traffic_of_perform hp with
  | stays other transactions => exact ⟨x, transactions ▸ hx, hover⟩
  | enqueues n l attempt here ready going transactions =>
      refine ⟨x, ?_, hover⟩
      rw [transactions]
      exact getElem?_concat_of_some hx
  | advances n x' stage here keeps advances first self =>
      by_cases hn : m = n
      · subst hn
        obtain rfl : x = x' := Option.some.inj (hx.symm.trans here)
        exact ⟨{ x with stage }, self ▸ getElem?_advanceSelf hx, advances.isOver hover⟩
      · refine ⟨x, ?_, hover⟩
        rw [self, getElem?_advanceSelf_of_ne hn, hx]

theorem hasEndedWrite_of_trace (hm : s.HasEndedWrite m) (ht : Trace s h t) :
    t.HasEndedWrite m := by
  induction ht with
  | start => exact hm
  | step _ hp ih => exact hasEndedWrite_of_perform ih hp

theorem hasEndedWrite_of_endsWrite {files : List File} {failure : Option Failure}
    (he : Moment.EndsWrite ⟨s, a⟩ m name files failure) (hp : s.perform a = some u) :
    u.HasEndedWrite m := by
  obtain ⟨x, target, reply, rfl, hx, hwriting, -, -⟩ := he
  cases traffic_of_perform hp with
  | stays other => exact absurd rfl (other m)
  | advances n x' stage here keeps advances first self =>
      obtain rfl : x = x' := Option.some.inj (hx.symm.trans here)
      refine ⟨{ x with stage }, self ▸ getElem?_advanceSelf hx, ?_⟩
      rcases advances.of_writing hwriting with ⟨-, -, past⟩ | ⟨failure, -, -, rfl⟩
      · exact past.isOver
      · trivial

/-- A transaction that records an instance waits for the answer to its write next, or has nothing
to write. -/
theorem isWriting_or_of_recorded (hr : Moment.recorded? ⟨s, a⟩ = some (m, name))
    (hp : s.perform a = some u) :
    s.wholeSelection ≠ [] ∧ u.IsWriting m ∨ s.wholeSelection = [] ∧ u.HasEndedWrite m := by
  obtain ⟨x, target, hx, -, -, settled⟩ := settled_of_recorded hr hp
  generalize hstage : x.stage = stage at settled
  cases settled with
  | writing hsome reply => exact .inl ⟨hsome, x, target, _, reply, hx, hstage⟩
  | past hnone past => exact .inr ⟨hnone, x, hx, hstage ▸ past.isOver⟩

/-- The whole selection was written to the instance that the `m`-th transaction recorded at a
moment, or there was nothing to write. -/
def Filled (later : List Moment) (e : Moment) (m : Nat) (name : InstanceId) : Prop :=
  e.state.wholeSelection = [] ∨ ∃ w ∈ later, w.EndsWrite m name e.state.wholeSelection none

/-- An instance in use lacks files as long as the transaction that recorded it is writing them. -/
theorem filled_iff_of_inUse (hs : s.IsStart) (ht : Trace s (later ++ e :: earlier) t)
    (hrec : e.recorded? = some (m, name)) (hlast : ∀ w ∈ later, ∀ n, w.recorded? ≠ some (n, name))
    (huse : t.InUse name) : Filled later e m name ↔ ¬ t.IsWriting m := by
  constructor
  · intro hfilled
    have hended : t.HasEndedWrite m := by
      rcases hfilled with hnone | ⟨w, hw, hends⟩
      · obtain ⟨-, u, hu, hlater⟩ := ht.split
        rcases isWriting_or_of_recorded hrec hu with ⟨hsome, -⟩ | ⟨-, hended⟩
        · exact absurd hnone hsome
        · exact hasEndedWrite_of_trace hended hlater
      · obtain ⟨after, before, -, -, u, hu, hafter⟩ :=
          ht.split_of_mem (List.mem_append_left _ hw)
        exact hasEndedWrite_of_trace (hasEndedWrite_of_endsWrite hends hu) hafter
    exact hended.not_isWriting
  · intro hwriting
    have hc := complete_of_trace hs ht later e earlier m name rfl hrec hlast huse
    obtain ⟨x, target, hx, -, -, hstage⟩ := hc.stage
    rcases hstage with ⟨reply, hstage⟩ | ⟨-, hfilled⟩
    · exact absurd ⟨x, target, _, reply, hx, hstage⟩ hwriting
    · exact hfilled

/-- As long as an instance that was known at the start is in use and no transaction has recorded
it again, no write to it has failed. -/
theorem unfailed_of_trace (hs : s.IsStart) (ht : Trace s h t)
    (hnone : ∀ w ∈ h, ∀ n, w.recorded? ≠ some (n, name)) (huse : t.InUse name) :
    ∀ w ∈ h, ¬ w.FailsWrite name := by
  induction ht with
  | start => simp
  | step ht hp ih =>
      rename_i h t u a
      have hbefore : t.InUse name := by
        rcases inUse_of_perform hp huse with hbefore | ⟨n, hrec⟩
        · exact hbefore
        · exact absurd hrec (hnone _ (List.mem_cons_self ..) n)
      intro w hw
      rcases List.mem_cons.mp hw with rfl | hw
      · obtain ⟨j, hj, -⟩ := calls_of_trace hs ht
        exact fun hf => not_inUse_of_failsWrite hj hf hp huse
      · exact ih (fun w hw => hnone w (List.mem_cons_of_mem _ hw)) hbefore w hw

/-! ### What a restart takes up -/

/-- The instance that a restart would take up for a project. -/
def stored? (p : String) (s : State) : Option Instance :=
  (Identity.restore p s.world).identity.inst

theorem stored?_eq : s.stored? p = (s.world.state? p).bind (·.inst) := by
  unfold stored? Identity.restore World.state?
  cases hs : s.world.store with
  | none => rfl
  | some store =>
      simp only [Option.bind_some, Store.state?]
      cases store.state p with
      | error e => rfl
      | ok x => cases x <;> rfl

/-- What a restart would take up is the known instance. -/
theorem Mirrored.inst_of_stored {r : Bool} {inst : Instance} (hm : s.Mirrored p r)
    (hx : s.stored? p = some inst) : s.identity.inst = some inst := by
  rw [stored?_eq] at hx
  obtain ⟨x, hread, hinst⟩ := Option.bind_eq_some_iff.mp hx
  rw [← hm.backed.agrees x hread, hinst]

theorem Mirrored.stored?_eq (hm : s.Mirrored p true) : s.stored? p = s.identity.inst := by
  obtain ⟨x, hread⟩ := Option.isSome_iff_exists.mp (hm.backed.there rfl)
  rw [State.stored?_eq, hread]
  exact hm.backed.agrees x hread

/-- An instance is stored as soon as it is recorded. -/
theorem stored?_of_recorded (hm : s.Mirrored p true)
    (hr : Moment.recorded? ⟨s, a⟩ = some (m, name)) (hp : s.perform a = some u) :
    ∃ inst, u.stored? p = some inst ∧ inst.id = name := by
  obtain ⟨inst, hinst, hname⟩ := inst_of_recorded hr hp
  obtain ⟨t, client, reply, inst', rfl, -⟩ := Moment.recorded?_eq_some.mp hr
  have hu : u.Mirrored p true := hm.stepTransaction hp
  exact ⟨inst, hu.stored?_eq.trans hinst, hname⟩

/-- The last moment of a history that recorded an instance. -/
theorem exists_last_recorded (h : List Moment) (name : InstanceId) :
    (∀ w ∈ h, ∀ n, w.recorded? ≠ some (n, name)) ∨
      ∃ later e earlier m, h = later ++ e :: earlier ∧ e.recorded? = some (m, name) ∧
        ∀ w ∈ later, ∀ n, w.recorded? ≠ some (n, name) := by
  induction h with
  | nil => simp
  | cons w h ih =>
      by_cases hw : ∃ m, w.recorded? = some (m, name)
      · obtain ⟨m, hw⟩ := hw
        exact .inr ⟨[], w, h, m, rfl, hw, by simp⟩
      · have hw : ∀ n, w.recorded? ≠ some (n, name) := fun n hn => hw ⟨n, hn⟩
        rcases ih with hnone | ⟨later, e, earlier, m, rfl, hrec, hlast⟩
        · exact .inl (List.forall_mem_cons.mpr ⟨hw, hnone⟩)
        · exact .inr ⟨w :: later, e, earlier, m, rfl, hrec,
            List.forall_mem_cons.mpr ⟨hw, hlast⟩⟩

theorem known_of_trace {i : Instance} (ht : Trace s h t) (hi : t.identity.inst = some i)
    (hnone : ∀ w ∈ h, ∀ n, w.recorded? ≠ some (n, i.id)) : s.identity.inst = some i := by
  induction ht with
  | start => exact hi
  | step ht hp ih =>
      rcases known_of_perform hp hi with hbefore | ⟨n, hrec⟩
      · exact ih hbefore fun w hw => hnone w (List.mem_cons_of_mem _ hw)
      · exact absurd hrec (hnone _ (List.mem_cons_self ..) n)

/-- At any moment the instance that a restart would take up is one that was taken up at the
start, with no failed write since, or one that a transaction has recorded, with no failed write
since.  In the latter case the whole selection has been written to it, unless that transaction is
still writing it. -/
theorem filled_iff_of_stored {number : Nat} {config : Config} {blueprint : Blueprint}
    {setup : List String} {w : World} {inst : Instance}
    (works : ∀ fails ∈ w.outages, fails = false)
    (ht : Trace (start number (some p) config blueprint setup w) h t)
    (hx : t.stored? p = some inst) :
    ((Identity.restore p w).identity.inst = some inst ∧
        (∀ v ∈ h, ∀ n, v.recorded? ≠ some (n, inst.id)) ∧ ∀ v ∈ h, ¬ v.FailsWrite inst.id) ∨
      ∃ later e earlier m, h = later ++ e :: earlier ∧ e.recorded? = some (m, inst.id) ∧
        (∀ v ∈ later, ∀ n, v.recorded? ≠ some (n, inst.id)) ∧
        (∀ v ∈ later, ¬ v.FailsWrite inst.id) ∧
        (Filled later e m inst.id ↔ ¬ t.IsWriting m) := by
  have hs : (start number (some p) config blueprint setup w).IsStart :=
    ⟨number, some p, config, blueprint, setup, w, rfl⟩
  have hm : t.Mirrored p false :=
    mirrored_of_follow (mirrored_start works number config blueprint setup) ht.follow
  have hknown : t.identity.inst = some inst := hm.inst_of_stored hx
  have huse : t.InUse inst.id := .inl ⟨inst, hknown, rfl⟩
  rcases exists_last_recorded h inst.id with hnone | ⟨later, e, earlier, m, rfl, hrec, hlast⟩
  · left
    exact ⟨known_of_trace ht hknown hnone, hnone, unfailed_of_trace hs ht hnone huse⟩
  · right
    have hc := complete_of_trace hs ht later e earlier m inst.id rfl hrec hlast huse
    exact ⟨later, e, earlier, m, rfl, hrec, hlast, hc.unfailed,
      filled_iff_of_inUse hs ht hrec hlast huse⟩

/-- An orchestrator with a store, in a project with one file. -/
def tracked : State :=
  .start 0 (some "demo") {} {} []
    { store := some {}, project := .ofTemplate [⟨"index.html", "x"⟩] }

/-- A first deployment asks for an instance, which is there at once. -/
def opening : List Action :=
  [.call .allFiles, .step (.caller 0), .step (.loop 0), .step (.transaction 0)]

/-- The first instance is recorded and stored, and not yet written to. -/
theorem trace_opening : ∃ e earlier t inst, Trace tracked (e :: earlier) t ∧
    e.recorded? = some (0, inst.id) ∧ e.state.wholeSelection ≠ [] ∧
      t.stored? "demo" = some inst := by
  have hrun : ∃ s ∈ tracked.follow opening, ∃ t ∈ s.perform (.step (.transaction 0)),
      ∃ inst ∈ t.stored? "demo", decide (
        Moment.recorded? ⟨s, .step (.transaction 0)⟩ = some (0, inst.id) ∧
          s.wholeSelection ≠ []) := by
    rw [tracked, Project.ofTemplate_eq]
    simp only [opening, follow, perform, step, stepTransaction, Transaction.step,
      Transaction.created, Transaction.checked, Transaction.beginWriting, Selection.select,
      wholeSelection, Selection.ofCandidates_eq]
    decide +kernel
  obtain ⟨s, hs, t, ht, inst, hstored, h⟩ := hrun
  obtain ⟨hrec, hsome⟩ := of_decide_eq_true h
  exact ⟨_, _, t, inst, (trace_of_follow hs).step ht, hrec, hsome, hstored⟩

theorem filled_iff_of_stored_of_opening : ∃ e earlier t inst,
    Trace tracked (e :: earlier) t ∧ t.stored? "demo" = some inst ∧ t.IsWriting 0 := by
  obtain ⟨e, earlier, t, inst, ht, hrec, hsome, hstored⟩ := trace_opening
  refine ⟨e, earlier, t, inst, ht, hstored, ?_⟩
  rcases filled_iff_of_stored (by simp) ht hstored with
    ⟨-, hnone, -⟩ | ⟨later, e', earlier', m, hsplit, hrec', hlast, -, hiff⟩
  · exact absurd hrec (hnone e (List.mem_cons_self ..) 0)
  · -- The first moment has recorded the instance, so it is the last one that did.
    rcases List.cons_eq_append_iff.mp hsplit with ⟨rfl, h⟩ | ⟨later, rfl, -⟩
    · obtain ⟨rfl, -⟩ := List.cons.inj h
      obtain ⟨rfl, -⟩ := Prod.mk.inj (Option.some.inj (hrec.symm.trans hrec'))
      by_cases hwriting : t.IsWriting 0
      · exact hwriting
      · have hfilled : Filled [] e' 0 inst.id := hiff.mpr hwriting
        simp [Filled, hsome] at hfilled
    · exact absurd hrec (hlast e (List.mem_cons_self ..) 0)

/-- An instance is stored before the whole selection has been written to it. -/
theorem not_filled_of_stored :
    ¬ ∀ (number : Nat) (p : String) (config : Config) (blueprint : Blueprint)
      (setup : List String) (w : World) (later earlier : List Moment) (e : Moment) (t : State)
      (inst : Instance) (m : Nat), (∀ fails ∈ w.outages, fails = false) →
        Trace (start number (some p) config blueprint setup w) (later ++ e :: earlier) t →
          t.stored? p = some inst → e.recorded? = some (m, inst.id) →
            (∀ v ∈ later, ∀ n, v.recorded? ≠ some (n, inst.id)) → Filled later e m inst.id := by
  intro h
  obtain ⟨e, earlier, t, inst, ht, hrec, hsome, hstored⟩ := trace_opening
  have hfilled : Filled [] e 0 inst.id :=
    h 0 "demo" {} {} [] _ [] earlier e t inst 0 (by simp) ht hstored hrec (by simp)
  simp [Filled, hsome] at hfilled

end State

end PreviewDeploy
