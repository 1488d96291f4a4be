import Mathlib.Algebra.Group.Int.Defs
import PreviewDeploy.Proofs.HistoryReadings

/-!
# Numbers in the stored history

A number is stored as 64 bits with a sign, and the numbers of files and of attempts are read as 32
bits without one.  Numbers of attempts have 32 bits from the start, so they are read as they were
written.  A number of files may have more: the row is stored all the same, but cannot be read, nor
can any list of deployments that it is in.  A delay of `2 ^ 63` milliseconds or more is stored as a
number below zero, and is read as none.

No operation looks at the number of files of a row.  So a history with any numbers of files goes
as the one with these numbers modulo `2 ^ 32` (`Store.Taken.wrapped`), which is read back, and only
what is read of the rows with a number beyond 32 bits is different.
-/

namespace PreviewDeploy

/-- The record as it is read again: a delay that does not fit into 63 bits counts as none. -/
def AttemptRecord.stored (a : AttemptRecord) : AttemptRecord :=
  { a with retryInMs := if a.retryInMs.toNat < 2 ^ 63 then a.retryInMs else 0 }

namespace Store

variable {s t : Store} {c : Change} {h : List Change} {id : DeploymentId} {project : String}

/-! ### Numbers of files modulo `2 ^ 32` -/

/-- The number of a cell modulo `2 ^ 32`. -/
def Cell.wrapped : Cell → Cell
  | integer n => integer (n % 2 ^ 32)
  | c => c

theorem Cell.wrapped_ofWord (n : Nat) : (ofWord n).wrapped = ofWord (n % 2 ^ 32) := by
  have hsmall : n % 2 ^ 32 < 2 ^ 63 := by omega
  have hmod : Int.bmod n UInt64.size % 2 ^ 32 = (n % 2 ^ 32 : Nat) := by
    have hsize : (UInt64.size : Int) = 2 ^ 64 := rfl
    rw [Int.bmod_def, hsize]
    split <;> omega
  rw [ofWord_of_lt hsmall, ofNat, ofWord, wrapped, hmod]

namespace DeploymentRow

def wrapped (r : DeploymentRow) : DeploymentRow := { r with fileCount := r.fileCount.wrapped }

theorem wrapped_ofStart (id : DeploymentId) (project : String) (session : SessionId)
    (fileCount : Nat) (now : Timestamp) :
    (ofStart id project session fileCount now).wrapped =
      ofStart id project session (fileCount % 2 ^ 32) now := by
  simp only [wrapped, ofStart, Cell.wrapped_ofWord]

@[simp] theorem isNamed_wrapped (r : DeploymentRow) : r.wrapped.isNamed id = r.isNamed id := rfl

@[simp] theorem isOpen_wrapped (r : DeploymentRow) : r.wrapped.isOpen = r.isOpen := rfl

theorem map_wrapped {p : DeploymentRow → Bool} {f : DeploymentRow → DeploymentRow}
    (hp : ∀ r, p r.wrapped = p r) (hf : ∀ r, (f r).wrapped = f r.wrapped)
    (rows : List DeploymentRow) :
    (rows.map fun r => if p r then f r else r).map wrapped =
      (rows.map wrapped).map fun r => if p r then f r else r := by
  rw [List.map_map, List.map_map]
  refine List.map_congr_left fun r _ => ?_
  cases hr : p r
  · simp [hp, hr]
  · simp [hp, hr, hf]

end DeploymentRow

/-- The change with its number of files modulo `2 ^ 32`. -/
def Change.wrapped : Change → Change
  | start id project session fileCount now => start id project session (fileCount % 2 ^ 32) now
  | c => c

/-- The store with the numbers of files modulo `2 ^ 32`. -/
def wrapped (s : Store) : Store := s.withDeployments (s.tables.deployments.map (·.wrapped))

theorem deployments_wrapped_eq_nil (hs : s.tables.deployments = []) :
    s.wrapped.tables.deployments = [] := by
  simp [wrapped, withDeployments, hs]

theorem any_wrapped (rows : List DeploymentRow) :
    (rows.map (·.wrapped)).any (·.isNamed id) = rows.any (·.isNamed id) := by
  rw [List.any_map]
  rfl

theorem wrapped_markEnded (status : DeploymentStatus) (error : String) (now : Timestamp) :
    (s.markEnded id status error now).wrapped = s.wrapped.markEnded id status error now := by
  have hrows := DeploymentRow.map_wrapped (p := fun r => r.isNamed id && r.isOpen)
    (f := fun r => r.ended status error now) (fun _ => rfl) (fun _ => rfl) s.tables.deployments
  simp only [wrapped, markEnded, withDeployments, hrows]

/-- A change makes of a store what the wrapped one makes of the wrapped store. -/
theorem perform_wrapped (c : Change) (s : Store) :
    c.wrapped.perform s.wrapped = (c.perform s).map wrapped := by
  cases c with
  | start id project session fileCount now =>
      simp only [Change.wrapped, Change.perform, start, wrapped, withDeployments, any_wrapped]
      split
      · rfl
      · simp [Except.map, withDeployments, wrapped, DeploymentRow.wrapped_ofStart]
  | recordAttempt id a now =>
      have hrows := DeploymentRow.map_wrapped (p := fun r => r.isNamed id)
        (f := fun r => { r with attempts :=
          Affinity.integer.apply (r.attempts.max (AttemptRow.ofRecord id a now).attempt) })
        (fun _ => rfl) (fun _ => rfl) s.tables.deployments
      simp only [Change.wrapped, Change.perform, recordAttempt, wrapped, withDeployments,
        any_wrapped]
      split
      · simp only [Except.map, wrapped, withDeployments, hrows]
      · rfl
  | complete id attempts inst now =>
      have hrows := DeploymentRow.map_wrapped (p := fun r => r.isNamed id)
        (f := fun r => r.completed attempts inst now) (fun _ => rfl) (fun _ => rfl)
        s.tables.deployments
      simp only [Change.wrapped, Change.perform, complete, wrapped, withDeployments, any_wrapped]
      split
      · simp only [Except.map, wrapped, withDeployments, hrows]
      · rfl
  | markTimedOut id error now => exact congrArg Except.ok (wrapped_markEnded ..).symm
  | markSuperseded id now => exact congrArg Except.ok (wrapped_markEnded ..).symm
  | reopen =>
      simp only [Change.wrapped, Change.perform, reopen, wrapped, withDeployments, Except.map]
      split <;> rfl

theorem Taken.wrapped (ht : Taken s h t) :
    Taken s.wrapped (h.map Change.wrapped) t.wrapped := by
  induction ht with
  | nil => exact .nil
  | @cons c h t u _ hp ih =>
      refine .cons ih ?_
      rw [perform_wrapped, hp]
      rfl

/-! ### What is said of a history does not depend on the numbers of files -/

theorem knows_wrapped : s.wrapped.Knows id ↔ s.Knows id := by
  rw [Knows, Knows, wrapped, withDeployments, any_wrapped]

theorem fileCount_wrapped : ∀ c ∈ h.map Change.wrapped, c.fileCount < 2 ^ 32 := by
  refine List.forall_mem_map.mpr fun c _ => ?_
  cases c with
  | start id project session fileCount now => exact Nat.mod_lt _ (by decide)
  | _ => exact Nat.two_pow_pos 32

theorem filterMap_wrapped {α : Type} {f : Change → Option α} (hf : ∀ c, f c.wrapped = f c) :
    (h.map Change.wrapped).filterMap f = h.filterMap f := by
  rw [List.filterMap_map]
  exact congrArg (h.filterMap ·) (funext hf)

theorem started_wrapped : started project (h.map Change.wrapped) = started project h :=
  filterMap_wrapped fun c => by cases c <;> rfl

theorem completed?_wrapped (c : Change) : c.wrapped.completed? id = c.completed? id := by
  cases c <;> rfl

theorem recorded_wrapped : recorded id (h.map Change.wrapped) = recorded id h :=
  filterMap_wrapped fun c => by cases c <;> rfl

theorem attemptNumbers_wrapped :
    AttemptNumbers id (h.map Change.wrapped) = AttemptNumbers id h := by
  have hlast : (h.map Change.wrapped).findSome? (·.completed? id) =
      h.findSome? (·.completed? id) := by
    rw [List.findSome?_map]
    exact congrArg (h.findSome? ·) (funext completed?_wrapped)
  have hsince : sinceCompletion id (h.map Change.wrapped) =
      (sinceCompletion id h).map Change.wrapped := by
    rw [sinceCompletion, sinceCompletion, List.takeWhile_map]
    congr 2
    funext c
    exact congrArg Option.isNone (completed?_wrapped c)
  ext n
  rw [mem_attemptNumbers, mem_attemptNumbers, hlast, hsince, recorded_wrapped]

theorem starts_wrapped : c.wrapped.Starts id ↔ c.Starts id := by
  cases c with
  | start => simp [Change.wrapped, Change.starts_start]
  | _ => rfl

theorem Taken.knows_of_starts (ht : Taken s h t) (hs : s.tables.deployments = []) :
    t.Knows id ↔ ∃ c ∈ h, c.Starts id := by
  rw [← knows_wrapped, ht.wrapped.knows_iff (deployments_wrapped_eq_nil hs) fileCount_wrapped]
  simp [starts_wrapped]

/-! ### The numbers in the rows -/

/-- A row comes from one with the same name and the same number of files, or from a start. -/
theorem exists_row_of_perform {row : DeploymentRow} (hp : c.perform s = .ok t)
    (hrow : row ∈ t.tables.deployments) :
    (∃ old ∈ s.tables.deployments, old.id = row.id ∧ old.fileCount = row.fileCount) ∨
      ∃ id project session fileCount now, c = .start id project session fileCount now ∧
        ¬ s.Knows id ∧ row = .ofStart id project session fileCount now := by
  -- The changes of rows that are there leave their names and their numbers of files.
  have old_of_map {p : DeploymentRow → Bool} {f : DeploymentRow → DeploymentRow}
      (hid : ∀ r, (f r).id = r.id) (hcount : ∀ r, (f r).fileCount = r.fileCount)
      (hmem : row ∈ s.tables.deployments.map fun r => if p r then f r else r) :
      ∃ old ∈ s.tables.deployments, old.id = row.id ∧ old.fileCount = row.fileCount := by
    obtain ⟨old, hold, rfl⟩ := List.mem_map.mp hmem
    refine ⟨old, hold, ?_⟩
    split
    · exact ⟨(hid old).symm, (hcount old).symm⟩
    · exact ⟨rfl, rfl⟩
  have hended {status : DeploymentStatus} {error : String} {now : Timestamp} (r : DeploymentRow) :
      (if r.isOpen then r.ended status error now else r).id = r.id ∧
        (if r.isOpen then r.ended status error now else r).fileCount = r.fileCount := by
    split <;> exact ⟨rfl, rfl⟩
  cases alters_of_perform hp with
  | start unknown deployments =>
      rw [deployments] at hrow
      rcases List.mem_append.mp hrow with hold | hnew
      · exact .inl ⟨row, hold, rfl, rfl⟩
      · exact .inr ⟨_, _, _, _, _, rfl, unknown, List.mem_singleton.mp hnew⟩
  | recordAttempt known deployments =>
      rw [deployments] at hrow
      refine .inl (old_of_map ?_ ?_ hrow) <;> exact fun _ => rfl
  | complete known deployments =>
      rw [deployments] at hrow
      refine .inl (old_of_map ?_ ?_ hrow) <;> exact fun _ => rfl
  | markTimedOut deployments =>
      rw [deployments] at hrow
      exact .inl (old_of_map (fun r => (hended r).1) (fun r => (hended r).2) hrow)
  | markSuperseded deployments =>
      rw [deployments] at hrow
      exact .inl (old_of_map (fun r => (hended r).1) (fun r => (hended r).2) hrow)
  | reopen deployments =>
      rw [deployments] at hrow
      exact .inl ⟨row, hrow, rfl, rfl⟩

theorem DeploymentRow.isNamed_ofStart {id' : DeploymentId} {session : SessionId}
    {fileCount : Nat} {now : Timestamp} :
    (ofStart id' project session fileCount now).isNamed id ↔ id' = id := by
  cases id'
  cases id
  simp [isNamed, ofStart]

/-- The row of a deployment that was started has the number that was given at its start. -/
theorem Taken.fileCount_of_start (ht : Taken s h t) (hs : s.tables.deployments = [])
    {session : SessionId} {fileCount : Nat} {now : Timestamp} {row : DeploymentRow}
    (hstart : .start id project session fileCount now ∈ h) (hrow : row ∈ t.tables.deployments)
    (hid : row.isNamed id) : row.fileCount = .ofWord fileCount := by
  induction ht generalizing row with
  | nil => cases hstart
  | @cons c h t u ht hp ih =>
      rcases exists_row_of_perform hp hrow with
        ⟨old, hold, hsame, hcount⟩ | ⟨id', project', session', fileCount', now', rfl, hnew, rfl⟩
      · have hold' : old.isNamed id := by
          rwa [DeploymentRow.isNamed, hsame]
        rcases List.mem_cons.mp hstart with rfl | hbefore
        · -- A deployment that has a row does not start.
          have hknown : t.Knows id := List.any_eq_true.mpr ⟨old, hold, hold'⟩
          cases alters_of_perform hp with
          | start unknown => exact absurd hknown unknown
        · rw [← hcount]
          exact ih hbefore hold hold'
      · obtain rfl := DeploymentRow.isNamed_ofStart.mp hid
        rcases List.mem_cons.mp hstart with heq | hbefore
        · injection heq with _ _ _ hn
          rw [hn]
          rfl
        · exact absurd ((ht.knows_of_starts hs).mpr ⟨_, hbefore, _, _, _, _, rfl⟩) hnew

/-! ### Reading -/

namespace DeploymentRow

theorem wrapped_eq_self {r : DeploymentRow} {n : Nat} (hr : r.fileCount = .ofWord n)
    (hn : n < 2 ^ 32) : r.wrapped = r := by
  have hcell : r.fileCount.wrapped = r.fileCount := by
    rw [hr, Cell.wrapped_ofWord, Nat.mod_eq_of_lt hn]
  rw [wrapped, hcell]

theorem toRecord_of_beyond {r : DeploymentRow} {record : DeploymentRecord} {n : Nat}
    (hr : r.wrapped = ofRecord record) (hcount : r.fileCount = .ofWord n) (hlow : 2 ^ 32 ≤ n)
    (hhigh : n < 2 ^ 64) :
    r.toRecord = .error (.corrupt table "file_count"
      (.cell (.outOfRange (Int.bmod n UInt64.size) 4))) := by
  have hread : read "file_count" 4 Place.uint32 (.ofWord n) = .error (.corrupt table "file_count"
      (.cell (.outOfRange (Int.bmod n UInt64.size) 4))) := by
    have hrange : ¬ (0 ≤ Int.bmod n UInt64.size ∧ Int.bmod n UInt64.size < UInt32.size) := by
      have hsize : (UInt64.size : Int) = 2 ^ 64 := rfl
      have hsmall : (UInt32.size : Int) = 2 ^ 32 := rfl
      rw [Int.bmod_def, hsize, hsmall]
      split <;> omega
    simp only [read, Place.uint32, Place.integer, Cell.ofWord, if_neg hrange]
    rfl
  have hrow : r = { ofRecord record with fileCount := .ofWord n } := by
    rw [← hr, ← hcount]
    rfl
  simp only [hrow, toRecord, ofRecord, read_text, ok_bind, readStatus_word, hread]
  rfl

end DeploymentRow

/-- A delay is read as the number that its cell has, or as none below zero. -/
theorem Cell.toNat_bmod_word (n : UInt64) :
    UInt64.ofNat (Int.bmod n.toNat UInt64.size).toNat = if n.toNat < 2 ^ 63 then n else 0 := by
  have hsize : (UInt64.size : Int) = 2 ^ 64 := rfl
  have hhigh : n.toNat < 2 ^ 64 := n.toNat_lt
  split
  · rename_i hfits
    have hnat : (Int.bmod n.toNat UInt64.size).toNat = n.toNat := by
      rw [Int.bmod_def, hsize]
      split <;> omega
    rw [hnat, UInt64.ofNat_toNat]
  · have hnone : (Int.bmod n.toNat UInt64.size).toNat = 0 := by
      rw [Int.bmod_def, hsize]
      split <;> omega
    rw [hnone]
    rfl

/-- A failed attempt is read with its number, and with its delay if that fits into 63 bits. -/
theorem AttemptRow.toRecord_stored (id : DeploymentId) (a : AttemptRecord) (now : Timestamp) :
    (ofRecord id a now).toRecord = .ok a.stored := by
  have hnumber : read "attempt" 0 Place.uint32 (.ofNat a.attempt.toNat) = .ok a.attempt := by
    rw [read, Place.uint32_ofNat]
    rfl
  have htext (column : String) (index : Nat) (text : String) :
      read column index Place.text (.text text) = .ok text := rfl
  have hdelay : read "retry_in_ms" 4 Place.integer (.ofWord a.retryInMs.toNat) =
      .ok (Int.bmod a.retryInMs.toNat UInt64.size) := rfl
  have hrotated : read "session_rotated" 5 Place.integer (.ofBool a.rotated) =
      .ok (if a.rotated then 1 else 0) := rfl
  simp only [toRecord, ofRecord, hnumber, hdelay, htext, hrotated, ok_bind,
    Cell.toNat_bmod_word]
  cases a with
  | mk attempt session error errorKind retryInMs rotated =>
      cases rotated <;> simp [pure, Except.pure, AttemptRecord.stored]

theorem mapM_eq_error {ε α β : Type} {f : α → Except ε β} {l : List α} {p : ε → Prop}
    (hl : ∀ x ∈ l, ∀ e, f x = .error e → p e) (hx : ∃ x ∈ l, ∃ e, f x = .error e) :
    ∃ e, l.mapM f = .error e ∧ p e := by
  induction l with
  | nil =>
      obtain ⟨x, hx, -⟩ := hx
      cases hx
  | cons y l ih =>
      rw [List.mapM_cons]
      cases hy : f y with
      | error e => exact ⟨e, rfl, hl y (.head _) e hy⟩
      | ok b =>
          have hrest : ∃ x ∈ l, ∃ e, f x = .error e := by
            obtain ⟨x, hmem, e, he⟩ := hx
            rcases List.mem_cons.mp hmem with rfl | hmem
            · rw [hy] at he
              cases he
            · exact ⟨x, hmem, e, he⟩
          obtain ⟨e, he, hp⟩ := ih (fun x hx => hl x (.tail _ hx)) hrest
          exact ⟨e, by rw [ok_bind, he]; rfl, hp⟩

theorem exists_start {r : DeploymentRecord} (hr : r ∈ records (h.map Change.wrapped)) :
    ∃ project session fileCount now, .start r.id project session fileCount now ∈ h := by
  have hstarts : ∃ c ∈ h, c.Starts r.id := by
    simpa [starts_wrapped] using mem_records.mp ⟨r, hr, rfl⟩
  obtain ⟨_, hc, project, session, fileCount, now, rfl⟩ := hstarts
  exact ⟨project, session, fileCount, now, hc⟩

namespace Taken

/-- Every row holds, but for its number of files, the record of a deployment that was started. -/
theorem exists_record (ht : Taken s h t) (hs : s.tables.deployments = []) {row : DeploymentRow}
    (hrow : row ∈ t.tables.deployments) :
    ∃ r ∈ records (h.map Change.wrapped), row.wrapped = .ofRecord r ∧
      ∃ project session fileCount now, .start r.id project session fileCount now ∈ h ∧
        row.fileCount = .ofWord fileCount := by
  have hmem : row.wrapped ∈ t.wrapped.tables.deployments := List.mem_map_of_mem hrow
  rw [ht.wrapped.deployments (deployments_wrapped_eq_nil hs) fileCount_wrapped] at hmem
  obtain ⟨r, hr, heq⟩ := List.mem_map.mp hmem
  refine ⟨r, hr, heq.symm, ?_⟩
  obtain ⟨project, session, fileCount, now, hc⟩ := exists_start hr
  have hid : row.isNamed r.id := by
    rw [← DeploymentRow.isNamed_wrapped, ← heq]
    simp
  exact ⟨project, session, fileCount, now, hc, ht.fileCount_of_start hs hc hrow hid⟩

/-- A deployment that was started has a record, which is read if its number of files has 32 bits; a
number beyond makes the row unreadable. -/
theorem deployment_of_start (ht : Taken s h t) (hs : s.tables.deployments = [])
    {session : SessionId} {fileCount : Nat} {now : Timestamp}
    (hstart : .start id project session fileCount now ∈ h) (hcount : fileCount < 2 ^ 64) :
    (fileCount < 2 ^ 32 → ∃ r, (records (h.map Change.wrapped)).find? (·.id = id) = some r ∧
      t.deployment id = .ok r ∧ r.fileCount.toNat = fileCount) ∧
    (2 ^ 32 ≤ fileCount → t.deployment id = .error (.corrupt DeploymentRow.table "file_count"
      (.cell (.outOfRange (Int.bmod fileCount UInt64.size) 4)))) := by
  have hknown : t.Knows id := (ht.knows_of_starts hs).mpr ⟨_, hstart, _, _, _, _, rfl⟩
  obtain ⟨row, hfind⟩ := Option.isSome_iff_exists.mp
    (List.find?_isSome.mpr (List.any_eq_true.mp hknown))
  have hmem : row ∈ t.tables.deployments := List.mem_of_find?_eq_some hfind
  have hnamed : row.isNamed id := by simpa using List.find?_some hfind
  have hcell := ht.fileCount_of_start hs hstart hmem hnamed
  obtain ⟨r, hr, hwrapped, -⟩ := ht.exists_record hs hmem
  have hid : r.id = id := by
    have : (DeploymentRow.ofRecord r).isNamed id := hwrapped ▸ hnamed
    simpa using this
  have hread : t.deployment id = row.toRecord := by rw [Store.deployment, hfind]
  refine ⟨fun hsmall => ⟨r, ?_, ?_, ?_⟩, fun hlarge => ?_⟩
  · subst hid
    exact find?_of_mem hr
  · rw [hread, ← DeploymentRow.wrapped_eq_self hcell hsmall, hwrapped,
      DeploymentRow.toRecord_ofRecord]
  · have hsame : (DeploymentRow.ofRecord r).fileCount = .ofWord fileCount := by
      rw [← hwrapped, DeploymentRow.wrapped_eq_self hcell hsmall, hcell]
    rw [Cell.ofWord_of_lt (by omega)] at hsame
    simp only [DeploymentRow.ofRecord, Cell.ofNat, Cell.integer.injEq] at hsame
    omega
  · rw [hread, DeploymentRow.toRecord_of_beyond hwrapped hcell hlarge hcount]

end Taken

/-- The rows that a list of a project's deployments is read from. -/
def window (t : Store) (project : String) (limit : UInt32) : List DeploymentRow :=
  (t.tables.deployments.reverse.filter fun r => r.project = .text project).take limit.toNat

namespace Taken

/-- But for their numbers of files, the rows of a project hold the records of its deployments. -/
theorem window_wrapped (ht : Taken s h t) (hs : s.tables.deployments = []) (limit : UInt32) :
    (t.window project limit).map (·.wrapped) =
      (((records (h.map Change.wrapped)).reverse.filter (·.project = project)).take
        limit.toNat).map .ofRecord := by
  have hrows : t.tables.deployments.map (·.wrapped) =
      (records (h.map Change.wrapped)).map .ofRecord :=
    ht.wrapped.deployments (deployments_wrapped_eq_nil hs) fileCount_wrapped
  have hproject : (fun row : DeploymentRow => decide (row.project = .text project)) ∘
      DeploymentRow.ofRecord = fun r => decide (r.project = project) := by
    funext r
    simp [DeploymentRow.ofRecord]
  have hfilter : (t.tables.deployments.reverse.filter fun r => r.project = .text project).map
      (·.wrapped) = (t.tables.deployments.map (·.wrapped)).reverse.filter fun r =>
        r.project = .text project := by
    rw [← List.map_reverse, List.filter_map]
    rfl
  rw [window, List.map_take, hfilter, hrows, ← List.map_reverse, List.filter_map, hproject,
    List.map_take]

/-- A list of deployments is read if the number of files of each of them has 32 bits. -/
theorem deployments_of_starts (ht : Taken s h t) (hs : s.tables.deployments = [])
    (hcounts : ∀ c ∈ h, c.fileCount < 2 ^ 64) (project : String) (limit : UInt32) :
    ((∀ id ∈ (started project h).take limit.toNat, ∀ p session fileCount now,
        .start id p session fileCount now ∈ h → fileCount < 2 ^ 32) →
      ∃ rs, t.deployments project limit = .ok rs ∧
        rs.map (·.id) = (started project h).take limit.toNat ∧
        ∀ r ∈ rs, r.project = project ∧ t.deployment r.id = .ok r) ∧
    ((∃ id ∈ (started project h).take limit.toNat, ∃ p session fileCount now,
        .start id p session fileCount now ∈ h ∧ 2 ^ 32 ≤ fileCount) →
      ∃ n, t.deployments project limit =
        .error (.corrupt DeploymentRow.table "file_count" (.cell (.outOfRange n 4)))) := by
  have hwindow : (t.window project limit).map (·.wrapped) =
      (((records (h.map Change.wrapped)).reverse.filter (·.project = project)).take
        limit.toNat).map .ofRecord := ht.window_wrapped hs limit
  have hids : ((records (h.map Change.wrapped)).reverse.filter (·.project = project)).map (·.id) =
      started project h := by
    rw [ht.wrapped.ids_records (deployments_wrapped_eq_nil hs) fileCount_wrapped,
      started_wrapped]
  have hread : t.deployments project limit = (t.window project limit).mapM DeploymentRow.toRecord :=
    rfl
  generalize hrs : ((records (h.map Change.wrapped)).reverse.filter (·.project = project)).take
    limit.toNat = rs at hwindow
  have hids' : rs.map (·.id) = (started project h).take limit.toNat := by
    rw [← hrs, List.map_take, hids]
  have hmem {r : DeploymentRecord} (hr : r ∈ rs) :
      r ∈ records (h.map Change.wrapped) ∧ r.project = project := by
    rw [← hrs] at hr
    obtain ⟨hr, hproject⟩ := List.mem_filter.mp (List.mem_of_mem_take hr)
    exact ⟨List.mem_reverse.mp hr, of_decide_eq_true hproject⟩
  have hrow {row : DeploymentRow} (hin : row ∈ t.window project limit) :
      ∃ r ∈ rs, row.wrapped = .ofRecord r ∧ ∃ p session fileCount now,
        .start r.id p session fileCount now ∈ h ∧ row.fileCount = .ofWord fileCount := by
    have hwrapped : row.wrapped ∈ rs.map .ofRecord := hwindow ▸ List.mem_map_of_mem hin
    obtain ⟨r, hr, heq⟩ := List.mem_map.mp hwrapped
    obtain ⟨p, session, fileCount, now, hstart⟩ := exists_start (hmem hr).1
    refine ⟨r, hr, heq.symm, p, session, fileCount, now, hstart, ?_⟩
    have hstored : row ∈ t.tables.deployments :=
      List.mem_reverse.mp (List.mem_of_mem_filter (List.mem_of_mem_take hin))
    refine ht.fileCount_of_start hs hstart hstored ?_
    rw [← DeploymentRow.isNamed_wrapped, ← heq]
    simp
  constructor
  · intro hsmall
    have hself : ∀ row ∈ t.window project limit, row.wrapped = row := by
      intro row hin
      obtain ⟨r, hr, -, p, session, fileCount, now, hstart, hcell⟩ := hrow hin
      refine DeploymentRow.wrapped_eq_self hcell (hsmall r.id ?_ p session fileCount now hstart)
      rw [← hids']
      exact List.mem_map_of_mem hr
    rw [List.map_congr_left hself, List.map_id'] at hwindow
    refine ⟨rs, ?_, hids', fun r hr => ⟨(hmem hr).2, ?_⟩⟩
    · rw [hread, hwindow, mapM_map_of_ok fun r _ => DeploymentRow.toRecord_ofRecord r,
        List.map_id']
    · have hid : r.id ∈ (started project h).take limit.toNat := hids' ▸ List.mem_map_of_mem hr
      obtain ⟨p, session, fileCount, now, hstart⟩ := exists_start (hmem hr).1
      obtain ⟨r', hfind, hok, -⟩ := (ht.deployment_of_start hs hstart (hcounts _ hstart)).1
        (hsmall r.id hid p session fileCount now hstart)
      rw [find?_of_mem (hmem hr).1] at hfind
      rw [hok, ← Option.some.inj hfind]
  · rintro ⟨id, hid, p, session, fileCount, now, hstart, hlarge⟩
    have hbeyond : ∀ row ∈ t.window project limit, ∀ e, row.toRecord = .error e →
        ∃ n, e = .corrupt DeploymentRow.table "file_count" (.cell (.outOfRange n 4)) := by
      intro row hin e he
      obtain ⟨r, -, hwrapped, p, session, n, now, hstart, hcell⟩ := hrow hin
      by_cases hsmall : n < 2 ^ 32
      · rw [← DeploymentRow.wrapped_eq_self hcell hsmall, hwrapped,
          DeploymentRow.toRecord_ofRecord] at he
        cases he
      · rw [DeploymentRow.toRecord_of_beyond hwrapped hcell (Nat.le_of_not_lt hsmall)
          (hcounts _ hstart)] at he
        exact ⟨_, (Except.error.inj he).symm⟩
    have hfail : ∃ row ∈ t.window project limit, ∃ e, row.toRecord = .error e := by
      obtain ⟨r, hr, rfl⟩ := List.mem_map.mp (hids' ▸ hid)
      have hheld : DeploymentRow.ofRecord r ∈ (t.window project limit).map (·.wrapped) :=
        hwindow ▸ List.mem_map_of_mem hr
      obtain ⟨row, hin, hwrapped⟩ := List.mem_map.mp hheld
      have hstored : row ∈ t.tables.deployments :=
        List.mem_reverse.mp (List.mem_of_mem_filter (List.mem_of_mem_take hin))
      have hnamed : row.isNamed r.id := by
        rw [← DeploymentRow.isNamed_wrapped, hwrapped]
        simp
      exact ⟨row, hin, _, DeploymentRow.toRecord_of_beyond hwrapped
        (ht.fileCount_of_start hs hstart hstored hnamed) hlarge (hcounts _ hstart)⟩
    obtain ⟨e, he, n, rfl⟩ := mapM_eq_error hbeyond hfail
    exact ⟨n, he⟩

/-- The failed attempts of a deployment are read in the order of their numbers, whatever their
delays. -/
theorem attempts_stored (ht : Taken s h t) (hs : s.tables.attempts = []) (id : DeploymentId) :
    t.attempts id = .ok ((((entries h).filter (·.deployment = id)).mergeSort
      AttemptEntry.numberLe).map (·.record.stored)) := by
  have hof : (fun row : AttemptRow => row.isOf id) ∘ AttemptEntry.row =
      fun e => decide (e.deployment = id) := by
    funext e
    simp
  rw [Store.attempts, ht.attempts hs, List.filter_map, hof,
    ← List.map_mergeSort fun e _ e' _ => AttemptEntry.numberLe_eq e e']
  exact mapM_map_of_ok fun e _ => AttemptRow.toRecord_stored ..

end Taken

/-! ### Any sequence of changes -/

/-- The changes of a sequence, the last one first, that are not refused. -/
def answered (s : Store) : List Change → List Change
  | [] => []
  | c :: h =>
    match c.perform (s.afterAll h) with
    | .ok _ => c :: s.answered h
    | .error _ => s.answered h

theorem taken_answered (s : Store) (h : List Change) : Taken s (s.answered h) (s.afterAll h) := by
  induction h with
  | nil => exact .nil
  | cons c h ih =>
      rw [answered, afterAll]
      cases hp : c.perform (s.afterAll h) with
      | ok t =>
          rw [after_of_ok hp]
          exact .cons ih hp
      | error e =>
          rw [after_of_error hp]
          exact ih

theorem mem_of_mem_answered (hc : c ∈ s.answered h) : c ∈ h := by
  induction h with
  | nil => cases hc
  | cons d h ih =>
      rw [answered] at hc
      split at hc
      · exact List.mem_cons.mpr ((List.mem_cons.mp hc).imp id ih)
      · exact .tail _ (ih hc)

/-- What is read of the numbers that were written by changes which were taken, the last one
first. -/
structure Shown (h : List Change) (t : Store) : Prop where
  /-- A deployment is read if its number of files has 32 bits, and then with its numbers as they
  were written. -/
  deployment : ∀ id project session fileCount now,
    .start id project session fileCount now ∈ h →
      (fileCount < 2 ^ 32 → ∃ r, t.deployment id = .ok r ∧ r.fileCount.toNat = fileCount ∧
        IsGreatest (AttemptNumbers id h) r.attempts) ∧
      (2 ^ 32 ≤ fileCount → t.deployment id = .error (.corrupt DeploymentRow.table "file_count"
        (.cell (.outOfRange (Int.bmod fileCount UInt64.size) 4))))
  /-- One number of files beyond 32 bits makes every list that the deployment is in unreadable. -/
  deployments : ∀ (project : String) (limit : UInt32),
    ((∀ id ∈ (started project h).take limit.toNat, ∀ p session fileCount now,
        .start id p session fileCount now ∈ h → fileCount < 2 ^ 32) →
      ∃ rs, t.deployments project limit = .ok rs ∧
        rs.map (·.id) = (started project h).take limit.toNat ∧
        ∀ r ∈ rs, r.project = project ∧ t.deployment r.id = .ok r) ∧
    ((∃ id ∈ (started project h).take limit.toNat, ∃ p session fileCount now,
        .start id p session fileCount now ∈ h ∧ 2 ^ 32 ≤ fileCount) →
      ∃ n, t.deployments project limit =
        .error (.corrupt DeploymentRow.table "file_count" (.cell (.outOfRange n 4))))
  /-- Failed attempts are always read, of each number the last one recorded; a delay that does not
  fit into 63 bits is read as none. -/
  attempts : ∀ id : DeploymentId, ∃ as, t.attempts id = .ok as ∧
    as.Pairwise (·.attempt < ·.attempt) ∧
    ∀ a, a ∈ as ↔ ∃ b, (recorded id h).find? (·.attempt = b.attempt) = some b ∧ a = b.stored
  /-- No change is refused because of a number. -/
  refused : ∀ (c : Change) (e : StoreError), c.perform t = .error e ↔ c.IsRefused t.Knows e

/-- Whatever changes are made of a store without deployments, with numbers of files of 64 bits: what
is read of the numbers is known from the changes that were taken. -/
theorem shown_of_changes (hd : s.tables.deployments = []) (ha : s.tables.attempts = [])
    (hcounts : ∀ c ∈ h, c.fileCount < 2 ^ 64) : Shown (s.answered h) (s.afterAll h) := by
  have ht := s.taken_answered h
  have hcounts' : ∀ c ∈ s.answered h, c.fileCount < 2 ^ 64 := fun c hc =>
    hcounts c (mem_of_mem_answered hc)
  constructor
  case deployment =>
    intro id project session fileCount now hstart
    have hread := ht.deployment_of_start hd hstart (hcounts' _ hstart)
    refine ⟨fun hsmall => ?_, hread.2⟩
    obtain ⟨r, hfind, hok, hcount⟩ := hread.1 hsmall
    have hgreatest :
        IsGreatest (AttemptNumbers id ((s.answered h).map Change.wrapped)) r.attempts :=
      ht.wrapped.isGreatest_attempts (deployments_wrapped_eq_nil hd) fileCount_wrapped r hfind
    rw [attemptNumbers_wrapped] at hgreatest
    exact ⟨r, hok, hcount, hgreatest⟩
  case deployments => exact ht.deployments_of_starts hd hcounts'
  case attempts =>
    intro id
    refine ⟨_, ht.attempts_stored ha id, ?_, fun a => ?_⟩
    · have hnodup : (((entries (s.answered h)).filter (·.deployment = id)).map
          (·.record.attempt)).Nodup := nodup_numbers
      have hsorted := AttemptEntry.pairwise_mergeSort hnodup
      rw [List.pairwise_map] at hsorted ⊢
      exact hsorted
    · simp only [List.mem_map, List.mem_mergeSort, List.mem_filter, decide_eq_true_eq]
      constructor
      · rintro ⟨e, ⟨he, hid⟩, rfl⟩
        exact ⟨e.record, mem_entries.mp ⟨e, he, hid, rfl⟩, rfl⟩
      · rintro ⟨b, hb, rfl⟩
        obtain ⟨e, he, hid, rfl⟩ := mem_entries.mpr hb
        exact ⟨e, ⟨he, hid⟩, rfl⟩
  case refused => exact fun c e => perform_eq_error

/-- A deployment of one file more than 32 bits can say, after one of two files in its project; an
attempt of the older one failed with a delay of `2 ^ 63` milliseconds. -/
def hugeNumbers : List Change :=
  [.recordAttempt ⟨"dep-1"⟩ ⟨1, ⟨"sess-1"⟩, "no answer", "timeout", 9223372036854775808, false⟩
      default,
    .start ⟨"dep-2"⟩ "demo" ⟨"sess-1"⟩ 4294967296 default,
    .start ⟨"dep-1"⟩ "demo" ⟨"sess-1"⟩ 2 default]

/-- The older one is read, with its number of files; the other one is not. -/
theorem shown_of_changes_of_hugeNumbers :
    Shown (({} : Store).answered hugeNumbers) (({} : Store).afterAll hugeNumbers) ∧
      ((({} : Store).afterAll hugeNumbers).deployment ⟨"dep-1"⟩).map (·.fileCount) = .ok 2 ∧
      ((({} : Store).afterAll hugeNumbers).deployments "demo" 10).isOk = false :=
  ⟨shown_of_changes (s := {}) rfl rfl (by decide), by decide +kernel, by decide +kernel⟩

/-- All three changes are taken, but the newer deployment cannot be read, nor can any list of the
project that it is in; and the delay is read as none. -/
theorem not_shown_as_written :
    ({} : Store).answered hugeNumbers = hugeNumbers ∧
      (({} : Store).afterAll hugeNumbers).deployment ⟨"dep-2"⟩ =
        .error (.corrupt "deployments" "file_count" (.cell (.outOfRange 4294967296 4))) ∧
      (({} : Store).afterAll hugeNumbers).deployments "demo" 1 =
        .error (.corrupt "deployments" "file_count" (.cell (.outOfRange 4294967296 4))) ∧
      ((({} : Store).afterAll hugeNumbers).attempts ⟨"dep-1"⟩).map (·.map (·.retryInMs)) =
        .ok [0] := by
  decide +kernel

end Store

end PreviewDeploy
