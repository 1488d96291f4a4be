import Mathlib.Order.Bounds.Basic
import PreviewDeploy.Proofs.HistoryRecords

/-!
# The order of statuses

A deployment can be marked several times: its caller gives up, a newer deployment takes its
place, and it may complete after all.  The marks come from different tasks, so nothing is certain
about their order, and nothing depends on it: statuses are ordered (`DeploymentStatus.rank`), each
mark raises the status to at least its own (`Store.Change.status_amend`), and what is stored of a
started deployment is the greatest of its marks (`Store.marked_of_changes`).
-/

namespace PreviewDeploy

namespace DeploymentStatus

/-- How much a status says: that nothing is known yet, that a caller has given up, that there is a
newer deployment, that an instance is there. -/
def rank : DeploymentStatus → Nat
  | running => 0
  | timedOut => 1
  | superseded => 2
  | completed => 3

theorem rank_injective : Function.Injective rank := by
  intro a b h
  cases a <;> cases b <;> first | rfl | cases h

instance : LinearOrder DeploymentStatus := .lift' rank rank_injective

theorem le_iff {a b : DeploymentStatus} : a ≤ b ↔ a.rank ≤ b.rank := Iff.rfl

theorem running_le (a : DeploymentStatus) : running ≤ a := le_iff.mpr (Nat.zero_le _)

theorem le_completed (a : DeploymentStatus) : a ≤ completed := by
  cases a <;> decide

end DeploymentStatus

/-- The columns of a record agree with its status: the time of the end, the error and the
instance are there exactly when they should be. -/
structure DeploymentRecord.Agrees (r : DeploymentRecord) : Prop where
  finishedAt : r.finishedAt.isSome ↔ r.status ≠ .running
  error : r.error.isSome ↔ r.status = .timedOut ∨ r.status = .superseded
  instanceId : r.instanceId.isSome ↔ r.status = .completed

namespace DeploymentRecord

variable {r : DeploymentRecord} {now : Timestamp}

theorem agrees_ofStart {id : DeploymentId} {project : String} {session : SessionId}
    {fileCount : Nat} : (ofStart id project session fileCount now).Agrees := by
  constructor <;> simp [ofStart]

theorem agrees_completed {attempts : UInt32} {inst : Instance} :
    (r.completed attempts inst now).Agrees := by
  constructor <;> simp [completed]

/-- A deployment that was open has no instance yet, whatever end it comes to. -/
theorem Agrees.ended {status : DeploymentStatus} {error : String} (h : r.Agrees)
    (hstatus : status = .timedOut ∨ status = .superseded) :
    (r.ended status error now).Agrees := by
  unfold DeploymentRecord.ended
  split
  · rename_i hopen
    have hnone : r.instanceId.isSome = false := by
      rw [← Bool.not_eq_true, h.instanceId]
      have hopen : r.status = .running ∨ r.status = .timedOut := by simpa [isOpen] using hopen
      rcases hopen with hr | hr
      · simp [hr]
      · simp [hr]
    constructor
    · rcases hstatus with rfl | rfl <;> simp
    · simpa using hstatus
    · rw [hnone]
      rcases hstatus with rfl | rfl <;> simp
  · exact h

end DeploymentRecord

namespace Store

variable {s : Store} {c : Change} {h later earlier : List Change} {id : DeploymentId}
  {r : DeploymentRecord} {rs : List DeploymentRecord}

namespace Change

/-- The status that a change marks its deployment with. -/
def mark? : Change → Option DeploymentStatus
  | complete .. => some .completed
  | markTimedOut .. => some .timedOut
  | markSuperseded .. => some .superseded
  | start .. | recordAttempt .. | reopen => none

theorem agrees_amend (hr : r.Agrees) : (c.amend r).Agrees := by
  cases c with
  | start => exact hr
  | recordAttempt => exact ⟨hr.finishedAt, hr.error, hr.instanceId⟩
  | complete => exact DeploymentRecord.agrees_completed
  | markTimedOut => exact hr.ended (.inl rfl)
  | markSuperseded => exact hr.ended (.inr rfl)
  | reopen => exact hr

theorem agrees_revise (hrs : ∀ r ∈ rs, r.Agrees) : ∀ r ∈ c.revise rs, r.Agrees := by
  intro r hr
  rcases List.mem_append.mp hr with hold | hnew
  · obtain ⟨r', hr', rfl⟩ := List.mem_map.mp hold
    split
    · exact agrees_amend (hrs r' hr')
    · exact hrs r' hr'
  · cases c with
    | start =>
        rw [newcomers] at hnew
        split at hnew
        · cases hnew
        · obtain rfl := List.mem_singleton.mp hnew
          exact DeploymentRecord.agrees_ofStart
    | recordAttempt => cases hnew
    | complete => cases hnew
    | markTimedOut => cases hnew
    | markSuperseded => cases hnew
    | reopen => cases hnew

/-- A mark raises the status to at least its own; nothing else changes the status. -/
theorem status_amend : (c.amend r).status =
    match c.mark? with
    | some m => max m r.status
    | none => r.status := by
  have hended {status : DeploymentStatus} {error : String} {now : Timestamp}
      (hstatus : status = .timedOut ∨ status = .superseded) :
      (r.ended status error now).status = max status r.status := by
    cases hr : r.status <;> rcases hstatus with rfl | rfl <;>
      simp [DeploymentRecord.ended, DeploymentRecord.isOpen, hr, DeploymentStatus.le_iff,
        DeploymentStatus.rank]
  cases c with
  | start => rfl
  | recordAttempt => rfl
  | complete => exact (max_eq_left (DeploymentStatus.le_completed r.status)).symm
  | markTimedOut => exact hended (.inl rfl)
  | markSuperseded => exact hended (.inr rfl)
  | reopen => rfl

end Change

/-- The marks of a deployment that has started: that it runs, and those that changes made. -/
def Marks (id : DeploymentId) (h : List Change) : Set DeploymentStatus :=
  {m | m = .running ∨ ∃ c ∈ h, c.about? = some id ∧ c.mark? = some m}

theorem mem_marks {m : DeploymentStatus} : m ∈ Marks id h ↔
    m = .running ∨ ∃ c ∈ h, c.about? = some id ∧ c.mark? = some m := Iff.rfl

theorem mem_marks_cons {m : DeploymentStatus} : m ∈ Marks id (c :: h) ↔
    (c.about? = some id ∧ c.mark? = some m) ∨ m ∈ Marks id h := by
  simp only [mem_marks, List.mem_cons, or_and_right, exists_or, exists_eq_left]
  exact or_left_comm

theorem marks_cons_of_mark {m : DeploymentStatus} (hid : c.about? = some id)
    (hm : c.mark? = some m) : Marks id (c :: h) = insert m (Marks id h) := by
  ext m'
  rw [mem_marks_cons, Set.mem_insert_iff, hm, Option.some_inj, eq_comm (a := m)]
  simp [hid]

theorem marks_cons_of_other (hc : c.about? = some id → c.mark? = none) :
    Marks id (c :: h) = Marks id h := by
  ext m
  rw [mem_marks_cons, or_iff_right]
  rintro ⟨hid, hm⟩
  rw [hc hid] at hm
  cases hm

/-- What changes make of the status of a deployment is the greatest of its marks. -/
theorem isGreatest_status_follow (hr : r.status = .running) :
    IsGreatest (Marks r.id h) (follow r h).status := by
  induction h with
  | nil =>
      refine ⟨.inl hr, ?_⟩
      rintro m (rfl | ⟨c, hc, -⟩)
      · exact DeploymentStatus.running_le _
      · cases hc
  | cons c h ih =>
      rw [follow]
      split
      · rename_i hid
        rw [Change.status_amend]
        cases hm : c.mark? with
        | some m =>
            rw [marks_cons_of_mark hid hm]
            exact ih.insert m
        | none =>
            rw [marks_cons_of_other fun _ => hm]
            exact ih
      · rename_i hid
        rw [marks_cons_of_other fun h => absurd h hid]
        exact ih

theorem marks_of_perm {h' : List Change} (hp : h'.Perm h) : Marks id h' = Marks id h := by
  ext m
  simp only [mem_marks, hp.mem_iff]

theorem agrees_records : ∀ r ∈ records h, r.Agrees := by
  induction h with
  | nil =>
      intro r hr
      cases hr
  | cons c h ih => exact Change.agrees_revise ih

/-- The stored status of a deployment is the greatest of the marks after its first start. -/
theorem status_of_starts (hs : s.tables.deployments = [])
    (files : ∀ d ∈ later ++ c :: earlier, d.fileCount < 2 ^ 32) (hc : c.Starts id)
    (hfirst : ∀ d ∈ earlier, ¬ d.Starts id) :
    ∃ r, (s.afterAll (later ++ c :: earlier)).deployment id = .ok r ∧
      IsGreatest (Marks id later) r.status := by
  obtain ⟨project, session, fileCount, now, rfl⟩ := hc
  refine ⟨_, deployment_of_find? (deployments_afterAll hs files) (find?_records hfirst), ?_⟩
  exact isGreatest_status_follow rfl

/-- What is stored of deployments after changes, the last one first. -/
structure Marked (s : Store) (h : List Change) : Prop where
  /-- The status of a deployment is the greatest of the marks after its start, and stays the same
  if these changes come in another order. -/
  status : ∀ {id : DeploymentId} {c : Change} {later earlier : List Change},
    h = later ++ c :: earlier → c.Starts id → (∀ d ∈ earlier, ¬ d.Starts id) →
    ∃ r, (s.afterAll h).deployment id = .ok r ∧ IsGreatest (Marks id later) r.status ∧
      ∀ later', later'.Perm later →
        ∃ r', (s.afterAll (later' ++ c :: earlier)).deployment id = .ok r' ∧ r'.status = r.status
  /-- A deployment that has not started is not found. -/
  unknown : ∀ {id : DeploymentId}, (∀ c ∈ h, ¬ c.Starts id) →
    (s.afterAll h).deployment id = .error (.notFound ("deployment " ++ id.text))
  /-- Every row can be read, and its columns agree with its status. -/
  rows : ∀ row ∈ (s.afterAll h).tables.deployments, ∃ r, row.toRecord = .ok r ∧ r.Agrees
  /-- A further change leaves the rows of other deployments and of their attempts. -/
  others : ∀ {c : Change} {id : DeploymentId}, c.about? = some id →
    (s.afterAll (c :: h)).tables.deployments.filter (!·.isNamed id) =
        (s.afterAll h).tables.deployments.filter (!·.isNamed id) ∧
      (s.afterAll (c :: h)).tables.attempts.filter (!·.isOf id) =
        (s.afterAll h).tables.attempts.filter (!·.isOf id)
  /-- A further change is refused exactly if it starts a deployment that has started, or is a
  failed attempt or the completion of one that has not. -/
  refused : ∀ {c : Change} {e : StoreError}, c.perform (s.afterAll h) = .error e ↔
    c.IsRefused (fun id => ∃ d ∈ h, d.Starts id) e
  /-- A change that is refused changes nothing. -/
  unchanged : ∀ {c : Change} {e : StoreError}, c.perform (s.afterAll h) = .error e →
    s.afterAll (c :: h) = s.afterAll h

/-- Whatever changes come, in any order: a deployment that has started has the greatest of its
marks as its status, its columns agree with that, and nothing else is touched. -/
theorem marked_of_changes (hs : s.tables.deployments = []) (files : ∀ c ∈ h, c.fileCount < 2 ^ 32) :
    Marked s h := by
  have hrows := deployments_afterAll hs files
  have hknows (id : DeploymentId) : (s.afterAll h).Knows id ↔ ∃ d ∈ h, d.Starts id := by
    rw [knows_iff hrows, mem_records]
  constructor
  case status =>
    intro id c later earlier hsplit hc hfirst
    subst hsplit
    obtain ⟨r, hr, hgreatest⟩ := status_of_starts hs files hc hfirst
    refine ⟨r, hr, hgreatest, ?_⟩
    intro later' hperm
    have files' : ∀ d ∈ later' ++ c :: earlier, d.fileCount < 2 ^ 32 := by
      intro d hd
      exact files d ((hperm.append_right _).mem_iff.mp hd)
    obtain ⟨r', hr', hgreatest'⟩ := status_of_starts hs files' hc hfirst
    rw [marks_of_perm hperm] at hgreatest'
    exact ⟨r', hr', hgreatest'.unique hgreatest⟩
  case unknown =>
    intro id hnone
    apply deployment_of_unknown
    rw [hknows]
    rintro ⟨d, hd, hstarts⟩
    exact hnone d hd hstarts
  case rows =>
    intro row hrow
    rw [hrows] at hrow
    obtain ⟨r, hr, rfl⟩ := List.mem_map.mp hrow
    exact ⟨r, DeploymentRow.toRecord_ofRecord r, agrees_records r hr⟩
  case others =>
    intro c id hc
    cases hp : c.perform (s.afterAll h) with
    | ok t =>
        rw [afterAll, after_of_ok hp]
        exact others_of_perform hc hp
    | error e =>
        rw [afterAll, after_of_error hp]
        exact ⟨rfl, rfl⟩
  case refused =>
    intro c e
    rw [perform_eq_error, funext fun id => propext (hknows id)]
  case unchanged =>
    intro c e hp
    rw [afterAll, after_of_error hp]

/-- A deployment starts; its caller gives up, a newer one takes its place, and it completes after
all.  A second start and what is said of another deployment are refused or change nothing. -/
def lateCompletion : List Change :=
  [.recordAttempt ⟨"dep-2"⟩ ⟨1, ⟨"sess-1"⟩, "no answer", "timeout", 500, false⟩ default,
    .complete ⟨"dep-1"⟩ 2 ⟨⟨"run-1"⟩, some "https://run-1.example", none⟩ default,
    .markSuperseded ⟨"dep-1"⟩ default,
    .start ⟨"dep-1"⟩ "shop" ⟨"sess-2"⟩ 4 default,
    .markTimedOut ⟨"dep-1"⟩ "no preview in time" default,
    .markSuperseded ⟨"dep-2"⟩ default,
    .start ⟨"dep-1"⟩ "shop" ⟨"sess-1"⟩ 3 default]

/-- The late completion counts, and two changes were refused. -/
theorem marked_of_changes_of_lateCompletion : Marked {} lateCompletion ∧
    ((({} : Store).afterAll lateCompletion).deployment ⟨"dep-1"⟩).map (·.status) =
      .ok .completed ∧
    (({} : Store).afterAll lateCompletion).tables.attempts = [] :=
  ⟨marked_of_changes rfl (by decide), by decide +kernel, by decide +kernel⟩

end Store

end PreviewDeploy
