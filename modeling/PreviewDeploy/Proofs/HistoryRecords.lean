import Mathlib.Algebra.Group.Nat.Defs
import Mathlib.Logic.Basic
import PreviewDeploy.Proofs.StoredStates

/-!
# Records of the stored history

A `Store.Change` is a write of the history of deployments, or the opening of a store's file
again.  What any sequence of changes leaves in the tables is known without the tables: a row for
each record of a list that every change revises (`Store.deployments_afterAll`), and a row for
each entry of a list of failed attempts (`Store.Taken.attempts`).  Each such row reads as its
record (`DeploymentRow.toRecord_ofRecord`, `AttemptRow.toRecord_ofRecord`).  A change leaves the
rows of other deployments alone, and one that is refused leaves all rows alone.
-/

namespace PreviewDeploy

/-! ### Records -/

namespace DeploymentRecord

/-- The record of a deployment that has just started. -/
def ofStart (id : DeploymentId) (project : String) (session : SessionId) (fileCount : Nat)
    (now : Timestamp) : DeploymentRecord where
  id := id
  project := project
  session := session
  status := .running
  fileCount := UInt32.ofNat fileCount
  attempts := 0
  instanceId := none
  previewUrl := none
  error := none
  startedAt := now.text
  finishedAt := none

/-- The record after a completion. -/
def completed (r : DeploymentRecord) (attempts : UInt32) (inst : Instance) (now : Timestamp) :
    DeploymentRecord :=
  { r with
    status := .completed
    attempts := attempts
    instanceId := some inst.id.text
    previewUrl := inst.previewUrl
    error := none
    finishedAt := some now.text }

/-- Running or timed out. -/
def isOpen (r : DeploymentRecord) : Bool := r.status = .running || r.status = .timedOut

/-- The record after an end other than completion, which only an open deployment comes to. -/
def ended (r : DeploymentRecord) (status : DeploymentStatus) (error : String) (now : Timestamp) :
    DeploymentRecord :=
  if r.isOpen then { r with status, error := some error, finishedAt := some now.text } else r

/-- The record after a failed attempt with a number. -/
def attempted (r : DeploymentRecord) (n : UInt32) : DeploymentRecord :=
  { r with attempts := if r.attempts < n then n else r.attempts }

end DeploymentRecord

namespace Store

/-! ### Rows of records -/

theorem ok_bind {ε α β : Type} (a : α) (f : α → Except ε β) : Except.ok a >>= f = f a := rfl

theorem Cell.ofWord_of_lt {n : Nat} (h : n < 2 ^ 63) : Cell.ofWord n = .ofNat n := by
  have hsize : UInt64.size = 2 ^ 64 := rfl
  have hmod : Int.bmod n UInt64.size = n := by
    apply Int.bmod_eq_of_le_mul_two
    · omega
    · omega
  rw [Cell.ofWord, hmod, Cell.ofNat]

theorem Place.uint32_ofNat (p : Place) (n : UInt32) : p.uint32 (.ofNat n.toNat) = .ok n := by
  have hlt : (n.toNat : Int) < UInt32.size := Int.ofNat_lt.mpr n.toNat_lt
  simp only [Place.uint32, Place.integer, Cell.ofNat]
  rw [if_pos ⟨Int.natCast_nonneg _, hlt⟩, Int.toNat_natCast, UInt32.ofNat_toNat]

namespace DeploymentRow

variable {id : DeploymentId} {r : DeploymentRecord} {now : Timestamp}

/-- The row that holds a record. -/
def ofRecord (r : DeploymentRecord) : DeploymentRow where
  id := .text r.id.text
  project := .text r.project
  sessionId := .text r.session.text
  status := .text r.status.word
  fileCount := .ofNat r.fileCount.toNat
  attempts := .ofNat r.attempts.toNat
  instanceId := .ofText? r.instanceId
  previewUrl := .ofText? r.previewUrl
  error := .ofText? r.error
  startedAt := .text r.startedAt
  finishedAt := .ofText? r.finishedAt

theorem read_text (column : String) (index : Nat) (text : String) :
    read column index Place.text (.text text) = .ok text := rfl

theorem read_uint32 (column : String) (index : Nat) (n : UInt32) :
    read column index Place.uint32 (.ofNat n.toNat) = .ok n := by
  rw [read, Place.uint32_ofNat]
  rfl

theorem read_text? (column : String) (index : Nat) (text : Option String) :
    read column index Place.text? (.ofText? text) = .ok text := by
  cases text <;> rfl

theorem readStatus_word (status : DeploymentStatus) : readStatus status.word = .ok status := by
  have hword : DeploymentStatus.ofWord? status.word = some status := by cases status <;> decide
  rw [readStatus, hword]

@[simp] theorem toRecord_ofRecord (r : DeploymentRecord) : (ofRecord r).toRecord = .ok r := by
  simp only [toRecord, ofRecord, read_text, read_uint32, read_text?, ok_bind, readStatus_word]
  rfl

@[simp] theorem isNamed_ofRecord : (ofRecord r).isNamed id = decide (r.id = id) := by
  have hid : r.id.text = id.text ↔ r.id = id := by
    cases hr : r.id
    cases id
    simp
  simp [isNamed, ofRecord, hid]

@[simp] theorem isOpen_ofRecord : (ofRecord r).isOpen = r.isOpen := by
  have hword (status : DeploymentStatus) : r.status.word = status.word ↔ r.status = status := by
    cases r.status <;> cases status <;> decide
  simp [isOpen, DeploymentRecord.isOpen, ofRecord, hword]

theorem ofStart_eq {project : String} {session : SessionId} {fileCount : Nat}
    (h : fileCount < 2 ^ 32) :
    ofStart id project session fileCount now =
      ofRecord (.ofStart id project session fileCount now) := by
  have hcount : (UInt32.ofNat fileCount).toNat = fileCount := UInt32.toNat_ofNat_of_lt' h
  have hcell : Cell.ofWord fileCount = .ofNat fileCount := Cell.ofWord_of_lt (by omega)
  simp only [ofStart, ofRecord, DeploymentRecord.ofStart, hcount, hcell]
  rfl

theorem completed_ofRecord (attempts : UInt32) (inst : Instance) :
    (ofRecord r).completed attempts inst now = ofRecord (r.completed attempts inst now) := rfl

theorem ended_ofRecord (status : DeploymentStatus) (error : String) :
    (if (ofRecord r).isOpen then (ofRecord r).ended status error now else ofRecord r) =
      ofRecord (r.ended status error now) := by
  rw [isOpen_ofRecord, DeploymentRecord.ended]
  split <;> rfl

theorem attempted_ofRecord (n : UInt32) :
    { ofRecord r with
        attempts := Affinity.integer.apply ((ofRecord r).attempts.max (.ofNat n.toNat)) } =
      ofRecord (r.attempted n) := by
  have hmax : (Cell.ofNat r.attempts.toNat).max (.ofNat n.toNat) =
      .ofNat (if r.attempts < n then n else r.attempts).toNat := by
    by_cases h : r.attempts < n
    · simp [Cell.max, Cell.lt, Cell.ofNat, h, UInt32.lt_iff_toNat_lt.mp h]
    · simp [Cell.max, Cell.lt, Cell.ofNat, h, mt UInt32.lt_iff_toNat_lt.mpr h]
  simp only [ofRecord, DeploymentRecord.attempted, hmax]
  rfl

theorem map_isNamed {f : DeploymentRow → DeploymentRow}
    {g : DeploymentRecord → DeploymentRecord} (h : ∀ r, f (ofRecord r) = ofRecord (g r))
    (rs : List DeploymentRecord) :
    ((rs.map ofRecord).map fun row => if row.isNamed id then f row else row) =
      (rs.map fun r => if some id = some r.id then g r else r).map ofRecord := by
  rw [List.map_map, List.map_map]
  apply List.map_congr_left
  intro r _
  by_cases hr : r.id = id
  · simp [hr, h]
  · simp [hr, Ne.symm hr]

end DeploymentRow

namespace AttemptRow

theorem toRecord_ofRecord (id : DeploymentId) {a : AttemptRecord} {now : Timestamp}
    (h : a.retryInMs.toNat < 2 ^ 63) : (ofRecord id a now).toRecord = .ok a := by
  have hnumber : read "attempt" 0 Place.uint32 (.ofNat a.attempt.toNat) = .ok a.attempt := by
    rw [read, Place.uint32_ofNat]
    rfl
  have hdelay : read "retry_in_ms" 4 Place.integer (.ofWord a.retryInMs.toNat) =
      .ok (a.retryInMs.toNat : Int) := by
    rw [Cell.ofWord_of_lt h]
    rfl
  have htext (column : String) (index : Nat) (text : String) :
      read column index Place.text (.text text) = .ok text := rfl
  have hrotated : read "session_rotated" 5 Place.integer (.ofBool a.rotated) =
      .ok (if a.rotated then 1 else 0) := rfl
  simp only [toRecord, ofRecord, hnumber, hdelay, htext, hrotated, ok_bind]
  cases a with
  | mk attempt session error errorKind retryInMs rotated =>
      cases rotated <;> simp [pure, Except.pure]

end AttemptRow

/-! ### Changes -/

/-- What changes the stored history. -/
inductive Change where
  | start (id : DeploymentId) (project : String) (session : SessionId) (fileCount : Nat)
      (now : Timestamp)
  | recordAttempt (id : DeploymentId) (a : AttemptRecord) (now : Timestamp)
  | complete (id : DeploymentId) (attempts : UInt32) (inst : Instance) (now : Timestamp)
  | markTimedOut (id : DeploymentId) (error : String) (now : Timestamp)
  | markSuperseded (id : DeploymentId) (now : Timestamp)
  /-- The file of the store is closed and opened again. -/
  | reopen
  deriving DecidableEq, Repr

namespace Change

/-- The deployment that a change is about. -/
def about? : Change → Option DeploymentId
  | start id .. | recordAttempt id .. | complete id .. | markTimedOut id ..
  | markSuperseded id .. => some id
  | reopen => none

/-- The store after a change. -/
def perform : Change → Store → Except StoreError Store
  | start id project session fileCount now, s => s.start id project session fileCount now
  | recordAttempt id a now, s => s.recordAttempt id a now
  | complete id attempts inst now, s => s.complete id attempts inst now
  | markTimedOut id error now, s => .ok (s.markTimedOut id error now)
  | markSuperseded id now, s => .ok (s.markSuperseded id now)
  | reopen, s => .ok s.reopen

/-- How many files a deployment has that starts. -/
def fileCount : Change → Nat
  | start _ _ _ fileCount _ => fileCount
  | _ => 0

/-- The delay after an attempt that failed, in milliseconds. -/
def retryInMs : Change → Nat
  | recordAttempt _ a _ => a.retryInMs.toNat
  | _ => 0

/-- What a change makes of the record of its deployment. -/
def amend : Change → DeploymentRecord → DeploymentRecord
  | recordAttempt _ a _, r => r.attempted a.attempt
  | complete _ attempts inst now, r => r.completed attempts inst now
  | markTimedOut _ error now, r => r.ended .timedOut error now
  | markSuperseded _ now, r => r.ended .superseded supersededText now
  | start .., r | reopen, r => r

/-- The record of the deployment that a change starts, unless it is among those that are there. -/
def newcomers : Change → List DeploymentRecord → List DeploymentRecord
  | start id project session fileCount now, rs =>
    if rs.any (·.id = id) then [] else [.ofStart id project session fileCount now]
  | recordAttempt .., _ | complete .., _ | markTimedOut .., _ | markSuperseded .., _
  | reopen, _ => []

/-- What a change makes of the records of all deployments. -/
def revise (c : Change) (rs : List DeploymentRecord) : List DeploymentRecord :=
  (rs.map fun r => if c.about? = some r.id then c.amend r else r) ++ c.newcomers rs

/-- A change starts a deployment. -/
def Starts (id : DeploymentId) (c : Change) : Prop :=
  ∃ project session fileCount now, c = start id project session fileCount now

/-- A change is refused, with an error: the start of a known deployment, and a failed attempt or
the completion of an unknown one. -/
inductive IsRefused (known : DeploymentId → Prop) : Change → StoreError → Prop
  | start {id project session fileCount now} (h : known id) :
    IsRefused known (start id project session fileCount now)
      (.broken (.unique DeploymentRow.table ["id"]))
  | recordAttempt {id a now} (h : ¬ known id) :
    IsRefused known (recordAttempt id a now) (.broken .foreignKey)
  | complete {id attempts inst now} (h : ¬ known id) :
    IsRefused known (complete id attempts inst now) (.notFound ("deployment " ++ id.text))

end Change

/-- An event changes the stored history by one of the changes. -/
theorem exists_change_of_entry {project : String} {e : Event} {now : Timestamp}
    {entry : Journal.Entry} (h : Journal.entry? project e now = some entry) :
    ∃ c : Change, entry.write = c.perform := by
  cases e with
  | started deployment session _ files =>
      obtain rfl := Option.some.inj h
      exact ⟨.start deployment project session files.length now, rfl⟩
  | attemptFailed deployment session attempt error errorKind retryInMs rotated =>
      obtain rfl := Option.some.inj h
      exact ⟨.recordAttempt deployment
        { attempt, session, error, errorKind, retryInMs, rotated } now, rfl⟩
  | completed deployment _ inst attempts =>
      obtain rfl := Option.some.inj h
      exact ⟨.complete deployment attempts inst now, rfl⟩
  | timedOut deployment error =>
      obtain rfl := Option.some.inj h
      exact ⟨.markTimedOut deployment error now, rfl⟩
  | superseded deployment =>
      obtain rfl := Option.some.inj h
      exact ⟨.markSuperseded deployment now, rfl⟩
  | sessionRotated => cases h
  | selfHealTriggered => cases h

variable {s t u : Store} {c : Change} {h : List Change} {rs : List DeploymentRecord}
  {id : DeploymentId}

theorem after_of_ok {write : Store → Except StoreError Store} (hw : write s = .ok t) :
    s.after write = t := by
  rw [after, hw]

theorem after_of_error {write : Store → Except StoreError Store} {e : StoreError}
    (hw : write s = .error e) : s.after write = s := by
  rw [after, hw]

/-- A row of a deployment is stored. -/
def Knows (s : Store) (id : DeploymentId) : Prop := s.tables.deployments.any (·.isNamed id)

theorem perform_eq_error {e : StoreError} :
    c.perform s = .error e ↔ c.IsRefused s.Knows e := by
  constructor
  · intro hc
    cases c with
    | start id project session fileCount now =>
        simp only [Change.perform, Store.start] at hc
        split at hc
        · rename_i hknown
          obtain rfl := Except.error.inj hc
          exact .start hknown
        · cases hc
    | recordAttempt id a now =>
        simp only [Change.perform, Store.recordAttempt] at hc
        split at hc
        · cases hc
        · rename_i hknown
          obtain rfl := Except.error.inj hc
          exact .recordAttempt hknown
    | complete id attempts inst now =>
        simp only [Change.perform, Store.complete] at hc
        split at hc
        · cases hc
        · rename_i hknown
          obtain rfl := Except.error.inj hc
          exact .complete hknown
    | markTimedOut => cases hc
    | markSuperseded => cases hc
    | reopen => cases hc
  · intro hc
    cases hc with
    | start hknown => exact if_pos hknown
    | recordAttempt hknown => exact if_neg hknown
    | complete hknown => exact if_neg hknown

/-- What a change that is taken makes of the tables. -/
inductive Change.Alters (s t : Store) : Change → Prop
  | start {id project session fileCount now} (unknown : ¬ s.Knows id)
      (deployments : t.tables.deployments =
        s.tables.deployments ++ [.ofStart id project session fileCount now])
      (attempts : t.tables.attempts = s.tables.attempts) :
    Alters s t (.start id project session fileCount now)
  | recordAttempt {id a now} (known : s.Knows id)
      (deployments : t.tables.deployments = s.tables.deployments.map fun row =>
        if row.isNamed id then
          { row with
            attempts := Affinity.integer.apply (row.attempts.max (.ofNat a.attempt.toNat)) }
        else row)
      (attempts : t.tables.attempts = (s.tables.attempts.filter fun row =>
        !(row.isOf id && row.attempt = (AttemptRow.ofRecord id a now).attempt)) ++
          [.ofRecord id a now]) :
    Alters s t (.recordAttempt id a now)
  | complete {id count inst now} (known : s.Knows id)
      (deployments : t.tables.deployments = s.tables.deployments.map fun row =>
        if row.isNamed id then row.completed count inst now else row)
      (attempts : t.tables.attempts = s.tables.attempts) :
    Alters s t (.complete id count inst now)
  | markTimedOut {id error now}
      (deployments : t.tables.deployments = s.tables.deployments.map fun row =>
        if row.isNamed id then if row.isOpen then row.ended .timedOut error now else row else row)
      (attempts : t.tables.attempts = s.tables.attempts) : Alters s t (.markTimedOut id error now)
  | markSuperseded {id now}
      (deployments : t.tables.deployments = s.tables.deployments.map fun row =>
        if row.isNamed id then
          if row.isOpen then row.ended .superseded supersededText now else row
        else row)
      (attempts : t.tables.attempts = s.tables.attempts) : Alters s t (.markSuperseded id now)
  | reopen (deployments : t.tables.deployments = s.tables.deployments)
      (attempts : t.tables.attempts = s.tables.attempts) : Alters s t .reopen

theorem deployments_markEnded (status : DeploymentStatus) (error : String) (now : Timestamp) :
    (s.markEnded id status error now).tables.deployments = s.tables.deployments.map fun row =>
      if row.isNamed id then if row.isOpen then row.ended status error now else row else row := by
  simp only [markEnded, withDeployments, Bool.and_eq_true, ite_and]

theorem tables_reopen : s.reopen.tables = s.tables := by
  unfold reopen
  split <;> rfl

theorem alters_of_perform (hp : c.perform s = .ok t) : c.Alters s t := by
  cases c with
  | start id project session fileCount now =>
      simp only [Change.perform, Store.start] at hp
      split at hp
      · cases hp
      · rename_i unknown
        obtain rfl := Except.ok.inj hp
        exact .start unknown rfl rfl
  | recordAttempt id a now =>
      simp only [Change.perform, Store.recordAttempt] at hp
      split at hp
      · rename_i known
        obtain rfl := Except.ok.inj hp
        exact .recordAttempt known rfl rfl
      · cases hp
  | complete id attempts inst now =>
      simp only [Change.perform, Store.complete] at hp
      split at hp
      · rename_i known
        obtain rfl := Except.ok.inj hp
        exact .complete known rfl rfl
      · cases hp
  | markTimedOut id error now =>
      obtain rfl := Except.ok.inj hp
      exact .markTimedOut (deployments_markEnded .timedOut error now) rfl
  | markSuperseded id now =>
      obtain rfl := Except.ok.inj hp
      exact .markSuperseded (deployments_markEnded .superseded supersededText now) rfl
  | reopen =>
      obtain rfl := Except.ok.inj hp
      exact .reopen (congrArg Tables.deployments tables_reopen)
        (congrArg Tables.attempts tables_reopen)

/-! ### The deployments after changes -/

/-- The store after changes, the last one first; one that is refused changes nothing. -/
def afterAll (s : Store) : List Change → Store
  | [] => s
  | c :: h => (s.afterAll h).after c.perform

/-- The records of all deployments after changes, the last one first. -/
def records : List Change → List DeploymentRecord
  | [] => []
  | c :: h => c.revise (records h)

namespace Change

theorem map_amend_start {project : String} {session : SessionId} {fileCount : Nat}
    {now : Timestamp} :
    (rs.map fun r => if (start id project session fileCount now).about? = some r.id
      then (start id project session fileCount now).amend r else r) = rs := by
  simp [amend]

theorem map_amend_of_unknown (hc : ∀ r ∈ rs, c.about? ≠ some r.id) :
    (rs.map fun r => if c.about? = some r.id then c.amend r else r) = rs := by
  rw [List.map_congr_left fun r hr => if_neg (hc r hr), List.map_id']

theorem revise_of_refused {known : DeploymentId → Prop} {e : StoreError}
    (hknown : ∀ id, known id ↔ ∃ r ∈ rs, r.id = id) (hc : c.IsRefused known e) :
    c.revise rs = rs := by
  have hunknown (id : DeploymentId) (hid : ¬ known id) : ∀ r ∈ rs, some id ≠ some r.id := by
    intro r hr heq
    exact hid ((hknown id).mpr ⟨r, hr, (Option.some.inj heq).symm⟩)
  cases hc with
  | @start id _ _ _ _ hid =>
      have hany : rs.any (·.id = id) = true := by simpa using (hknown id).mp hid
      rw [revise, map_amend_start, newcomers, if_pos hany, List.append_nil]
  | recordAttempt hid =>
      rw [revise, map_amend_of_unknown (hunknown _ hid), newcomers, List.append_nil]
  | complete hid =>
      rw [revise, map_amend_of_unknown (hunknown _ hid), newcomers, List.append_nil]

end Change

theorem knows_iff (hs : s.tables.deployments = rs.map .ofRecord) :
    s.Knows id ↔ ∃ r ∈ rs, r.id = id := by
  simp [Knows, hs]

theorem deployments_of_perform (hs : s.tables.deployments = rs.map .ofRecord)
    (hc : c.fileCount < 2 ^ 32) (hp : c.perform s = .ok t) :
    t.tables.deployments = (c.revise rs).map .ofRecord := by
  rw [Change.revise, List.map_append]
  cases alters_of_perform hp with
  | @start id project session fileCount now unknown deployments =>
      have hfiles : fileCount < 2 ^ 32 := hc
      have hnone : ¬ rs.any (·.id = id) = true := by simpa [knows_iff hs] using unknown
      rw [Change.map_amend_start, Change.newcomers, if_neg hnone, List.map_singleton,
        ← DeploymentRow.ofStart_eq hfiles, ← hs, deployments]
  | recordAttempt known deployments =>
      rw [deployments, hs, Change.newcomers, List.map_nil, List.append_nil]
      exact DeploymentRow.map_isNamed (fun r => DeploymentRow.attempted_ofRecord _) rs
  | complete known deployments =>
      rw [deployments, hs, Change.newcomers, List.map_nil, List.append_nil]
      exact DeploymentRow.map_isNamed (fun r => DeploymentRow.completed_ofRecord ..) rs
  | markTimedOut deployments =>
      rw [deployments, hs, Change.newcomers, List.map_nil, List.append_nil]
      exact DeploymentRow.map_isNamed (fun r => DeploymentRow.ended_ofRecord ..) rs
  | markSuperseded deployments =>
      rw [deployments, hs, Change.newcomers, List.map_nil, List.append_nil]
      exact DeploymentRow.map_isNamed (fun r => DeploymentRow.ended_ofRecord ..) rs
  | reopen deployments =>
      have hnone : ∀ r ∈ rs, Change.reopen.about? ≠ some r.id :=
        fun r _ => (Option.some_ne_none _).symm
      rw [Change.map_amend_of_unknown hnone, Change.newcomers, List.map_nil, List.append_nil, ← hs,
        deployments]

theorem deployments_after (hs : s.tables.deployments = rs.map .ofRecord)
    (hc : c.fileCount < 2 ^ 32) :
    (s.after c.perform).tables.deployments = (c.revise rs).map .ofRecord := by
  cases hp : c.perform s with
  | error e =>
      rw [after_of_error hp, hs,
        Change.revise_of_refused (fun _ => knows_iff hs) (perform_eq_error.mp hp)]
  | ok t =>
      rw [after_of_ok hp]
      exact deployments_of_perform hs hc hp

/-- What changes leave of deployments: a row for each of the records. -/
theorem deployments_afterAll (hs : s.tables.deployments = [])
    (files : ∀ c ∈ h, c.fileCount < 2 ^ 32) :
    (s.afterAll h).tables.deployments = (records h).map .ofRecord := by
  induction h with
  | nil => exact hs
  | cons c h ih =>
      have hbefore := ih fun c hc => files c (List.mem_cons_of_mem _ hc)
      exact deployments_after hbefore (files c (List.mem_cons_self ..))

/-! ### The record of a deployment -/

/-- What changes make of the record of a deployment, the last one first. -/
def follow (r : DeploymentRecord) : List Change → DeploymentRecord
  | [] => r
  | c :: h => if c.about? = some r.id then c.amend (follow r h) else follow r h

namespace Change

variable {r : DeploymentRecord}

@[simp] theorem id_amend : (c.amend r).id = r.id := by
  cases c <;> simp only [amend, DeploymentRecord.ended] <;> first | rfl | (split <;> rfl)

@[simp] theorem project_amend : (c.amend r).project = r.project := by
  cases c <;> simp only [amend, DeploymentRecord.ended] <;> first | rfl | (split <;> rfl)

/-- What a change does not amend is the same for all records. -/
theorem comp_amend {α : Type} {f : DeploymentRecord → α} (keeps : ∀ r, f (c.amend r) = f r) :
    (f ∘ fun r => if c.about? = some r.id then c.amend r else r) = f := by
  funext r
  simp only [Function.comp_apply]
  split
  · exact keeps r
  · rfl

/-- A change amends the record of its deployment and no other one. -/
theorem find?_revise_of_known (hr : rs.find? (·.id = id) = some r) :
    (c.revise rs).find? (·.id = id) = some (if c.about? = some id then c.amend r else r) := by
  have hid : r.id = id := by simpa using List.find?_some hr
  have hname (r : DeploymentRecord) : decide ((c.amend r).id = id) = decide (r.id = id) := by
    rw [id_amend]
  rw [revise, List.find?_append, List.find?_map, comp_amend hname, hr, Option.map_some,
    Option.some_or, hid]

/-- An unknown deployment is known after it has started. -/
theorem find?_revise_of_starts {project : String} {session : SessionId} {fileCount : Nat}
    {now : Timestamp} (hnone : ∀ r ∈ rs, r.id ≠ id) :
    ((start id project session fileCount now).revise rs).find? (·.id = id) =
      some (.ofStart id project session fileCount now) := by
  have hany : ¬ rs.any (·.id = id) = true := by simpa using hnone
  have hfind : rs.find? (·.id = id) = none := by simpa using hnone
  rw [revise, map_amend_start, newcomers, if_neg hany, List.find?_append, hfind]
  simp [DeploymentRecord.ofStart]

/-- A change keeps the deployments that there are, in their order. -/
theorem ids_revise : (c.revise rs).map (·.id) = rs.map (·.id) ++ (c.newcomers rs).map (·.id) := by
  rw [revise, List.map_append, List.map_map, comp_amend fun _ => id_amend]

theorem starts_start {id' : DeploymentId} {project : String} {session : SessionId}
    {fileCount : Nat} {now : Timestamp} :
    (start id' project session fileCount now).Starts id ↔ id' = id := by
  simp [Starts]

theorem mem_revise : (∃ r ∈ c.revise rs, r.id = id) ↔ (∃ r ∈ rs, r.id = id) ∨ c.Starts id := by
  have hnew : (∃ r ∈ c.newcomers rs, r.id = id) ↔ c.Starts id ∧ ¬ ∃ r ∈ rs, r.id = id := by
    cases c with
    | start id' project session fileCount now =>
        rw [newcomers, starts_start]
        split
        · rename_i hany
          have hknown : ∃ r ∈ rs, r.id = id' := by simpa using hany
          constructor
          · rintro ⟨r, hr, -⟩
            cases hr
          · rintro ⟨rfl, hunknown⟩
            exact absurd hknown hunknown
        · rename_i hany
          have hunknown : ¬ ∃ r ∈ rs, r.id = id' := by simpa using hany
          constructor
          · rintro ⟨r, hr, hid⟩
            obtain rfl := List.mem_singleton.mp hr
            obtain rfl : id' = id := hid
            exact ⟨rfl, hunknown⟩
          · rintro ⟨rfl, -⟩
            exact ⟨_, List.mem_singleton_self _, rfl⟩
    | recordAttempt => simp [newcomers, Starts]
    | complete => simp [newcomers, Starts]
    | markTimedOut => simp [newcomers, Starts]
    | markSuperseded => simp [newcomers, Starts]
    | reopen => simp [newcomers, Starts]
  have hids : id ∈ (c.revise rs).map (·.id) ↔
      id ∈ rs.map (·.id) ∨ id ∈ (c.newcomers rs).map (·.id) := by
    rw [ids_revise, List.mem_append]
  simp only [List.mem_map] at hids
  rw [hids, hnew]
  by_cases hknown : ∃ r ∈ rs, r.id = id
  · simp [hknown]
  · simp [hknown]

end Change

@[simp] theorem id_follow {r : DeploymentRecord} : (follow r h).id = r.id := by
  induction h with
  | nil => rfl
  | cons c h ih =>
      rw [follow]
      split
      · rw [Change.id_amend, ih]
      · exact ih

theorem mem_records : (∃ r ∈ records h, r.id = id) ↔ ∃ c ∈ h, c.Starts id := by
  induction h with
  | nil => simp [records]
  | cons c h ih =>
      rw [records, Change.mem_revise, ih]
      simp [or_comm]

/-- The record of a deployment: what the changes after its first start make of it. -/
theorem find?_records {later earlier : List Change} {project : String} {session : SessionId}
    {fileCount : Nat} {now : Timestamp} (hnone : ∀ c ∈ earlier, ¬ c.Starts id) :
    (records (later ++ .start id project session fileCount now :: earlier)).find? (·.id = id) =
      some (follow (.ofStart id project session fileCount now) later) := by
  induction later with
  | nil =>
      apply Change.find?_revise_of_starts
      intro r hr hid
      obtain ⟨c, hc, hstarts⟩ := mem_records.mp ⟨r, hr, hid⟩
      exact hnone c hc hstarts
  | cons c later ih =>
      rw [List.cons_append, records, Change.find?_revise_of_known ih, follow]
      rfl

theorem deployment_of_find? {r : DeploymentRecord} (hs : s.tables.deployments = rs.map .ofRecord)
    (hr : rs.find? (·.id = id) = some r) : s.deployment id = .ok r := by
  have hname : (DeploymentRow.isNamed id) ∘ DeploymentRow.ofRecord =
      fun r => decide (r.id = id) := by
    funext r
    simp
  rw [deployment, hs, List.find?_map, hname, hr]
  exact DeploymentRow.toRecord_ofRecord r

theorem deployment_of_unknown (hs : ¬ s.Knows id) :
    s.deployment id = .error (.notFound ("deployment " ++ id.text)) := by
  have hfind : s.tables.deployments.find? (·.isNamed id) = none := by
    simpa [Knows] using hs
  rw [deployment, hfind]

/-! ### Other deployments -/

/-- Rows with another name are where they were after the rows with a name were replaced. -/
theorem DeploymentRow.filter_map_isNamed {f : DeploymentRow → DeploymentRow}
    (keeps : ∀ row, row.isNamed id → (f row).isNamed id) (rows : List DeploymentRow) :
    (rows.map fun row => if row.isNamed id then f row else row).filter (!·.isNamed id) =
      rows.filter (!·.isNamed id) := by
  induction rows with
  | nil => rfl
  | cons row rows ih =>
      by_cases hid : row.isNamed id
      · simp [hid, keeps row hid, ih]
      · simp [hid, ih]

theorem AttemptRow.filter_isOf (n : Cell) (rows : List AttemptRow) :
    (rows.filter fun row => !(row.isOf id && row.attempt = n)).filter (!·.isOf id) =
      rows.filter (!·.isOf id) := by
  rw [List.filter_filter]
  apply List.filter_congr
  intro row _
  cases row.isOf id <;> simp

/-- A change that is taken leaves the rows of other deployments and of their attempts. -/
theorem others_of_perform (hc : c.about? = some id) (hp : c.perform s = .ok t) :
    t.tables.deployments.filter (!·.isNamed id) = s.tables.deployments.filter (!·.isNamed id) ∧
      t.tables.attempts.filter (!·.isOf id) = s.tables.attempts.filter (!·.isOf id) := by
  have hended (status : DeploymentStatus) (error : String) (now : Timestamp) :
      (s.tables.deployments.map fun row => if row.isNamed id then
        if row.isOpen then row.ended status error now else row else row).filter (!·.isNamed id) =
        s.tables.deployments.filter (!·.isNamed id) := by
    apply DeploymentRow.filter_map_isNamed
      (f := fun row => if row.isOpen then row.ended status error now else row)
    intro row hrow
    split
    · exact hrow
    · exact hrow
  cases alters_of_perform hp with
  | @start id' project session fileCount now unknown deployments attempts =>
      obtain rfl := Option.some.inj hc
      have hnew : (DeploymentRow.ofStart id' project session fileCount now).isNamed id' = true := by
        simp [DeploymentRow.isNamed, DeploymentRow.ofStart]
      rw [deployments, attempts]
      simp [hnew]
  | @recordAttempt id' a now known deployments attempts =>
      obtain rfl := Option.some.inj hc
      have hnew : (AttemptRow.ofRecord id' a now).isOf id' = true := by
        simp [AttemptRow.isOf, AttemptRow.ofRecord]
      rw [deployments, attempts]
      constructor
      · apply DeploymentRow.filter_map_isNamed
        intro row hrow
        exact hrow
      · rw [List.filter_append, AttemptRow.filter_isOf]
        simp [hnew]
  | complete known deployments attempts =>
      obtain rfl := Option.some.inj hc
      rw [deployments, attempts]
      refine ⟨?_, rfl⟩
      apply DeploymentRow.filter_map_isNamed
      intro row hrow
      exact hrow
  | markTimedOut deployments attempts =>
      obtain rfl := Option.some.inj hc
      rw [deployments, attempts]
      exact ⟨hended .., rfl⟩
  | markSuperseded deployments attempts =>
      obtain rfl := Option.some.inj hc
      rw [deployments, attempts]
      exact ⟨hended .., rfl⟩
  | reopen => cases hc

/-! ### The attempts after changes -/

/-- A failed attempt of a deployment, and when it was stored. -/
structure AttemptEntry where
  deployment : DeploymentId
  record : AttemptRecord
  storedAt : Timestamp
  deriving DecidableEq, Repr

namespace AttemptEntry

variable {e : AttemptEntry}

def row (e : AttemptEntry) : AttemptRow := .ofRecord e.deployment e.record e.storedAt

/-- The attempt of a deployment with a number. -/
def isAttempt (id : DeploymentId) (n : UInt32) (e : AttemptEntry) : Bool :=
  e.deployment = id && e.record.attempt = n

@[simp] theorem isOf_row : e.row.isOf id = decide (e.deployment = id) := by
  have hid : e.deployment.text = id.text ↔ e.deployment = id := by
    cases he : e.deployment
    cases id
    simp
  simp [AttemptRow.isOf, row, AttemptRow.ofRecord, hid]

theorem isAttempt_row {a : AttemptRecord} {now : Timestamp} :
    (e.row.isOf id && e.row.attempt = (AttemptRow.ofRecord id a now).attempt) =
      e.isAttempt id a.attempt := by
  have hnumber : e.row.attempt = (AttemptRow.ofRecord id a now).attempt ↔
      e.record.attempt = a.attempt := by
    simp only [row, AttemptRow.ofRecord, Cell.ofNat, Cell.integer.injEq, ← UInt32.toNat_inj]
    omega
  simp [isAttempt, hnumber]

end AttemptEntry

/-- What a change makes of the entries of failed attempts. -/
def Change.enter : Change → List AttemptEntry → List AttemptEntry
  | recordAttempt id a now, es => es.filter (!·.isAttempt id a.attempt) ++ [⟨id, a, now⟩]
  | start .., es | complete .., es | markTimedOut .., es | markSuperseded .., es | reopen, es => es

/-- The entries of failed attempts after changes, the last one first. -/
def entries : List Change → List AttemptEntry
  | [] => []
  | c :: h => c.enter (entries h)

theorem attempts_of_perform {es : List AttemptEntry} (hs : s.tables.attempts = es.map (·.row))
    (hp : c.perform s = .ok t) : t.tables.attempts = (c.enter es).map (·.row) := by
  cases alters_of_perform hp with
  | start unknown deployments attempts => exact attempts.trans hs
  | recordAttempt known deployments attempts =>
      rw [attempts, hs]
      simp only [Change.enter, List.map_append, List.map_singleton, List.filter_map,
        Function.comp_def, AttemptEntry.isAttempt_row]
      rfl
  | complete known deployments attempts => exact attempts.trans hs
  | markTimedOut deployments attempts => exact attempts.trans hs
  | markSuperseded deployments attempts => exact attempts.trans hs
  | reopen deployments attempts => exact attempts.trans hs

/-! ### Changes that are taken -/

/-- A store that comes from another one by changes that were all taken, the last one first. -/
inductive Taken (s : Store) : List Change → Store → Prop
  | nil : Taken s [] s
  | cons {c : Change} {h : List Change} {t u : Store} (ht : Taken s h t)
    (hp : c.perform t = .ok u) : Taken s (c :: h) u

/-- The store after changes, the last one first, that are all taken. -/
def performAll (s : Store) : List Change → Except StoreError Store
  | [] => .ok s
  | c :: h => s.performAll h >>= c.perform

theorem taken_of_performAll (hp : s.performAll h = .ok t) : Taken s h t := by
  induction h generalizing t with
  | nil =>
      obtain rfl := Except.ok.inj hp
      exact .nil
  | cons c h ih =>
      obtain ⟨u, hu, hc⟩ := bind_eq_ok.mp hp
      exact .cons (ih hu) hc

namespace Taken

theorem eq_afterAll (ht : Taken s h t) : t = s.afterAll h := by
  induction ht with
  | nil => rfl
  | cons _ hp ih =>
      rw [afterAll, ← ih, after_of_ok hp]

/-- What changes leave of failed attempts: a row for each of the entries. -/
theorem attempts (ht : Taken s h t) (hs : s.tables.attempts = []) :
    t.tables.attempts = (entries h).map (·.row) := by
  induction ht with
  | nil => exact hs
  | cons _ hp ih => exact attempts_of_perform ih hp

end Taken

end Store

end PreviewDeploy
