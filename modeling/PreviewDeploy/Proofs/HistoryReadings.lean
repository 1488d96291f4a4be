import Mathlib.Data.List.Nodup
import Mathlib.Order.Bounds.Basic
import PreviewDeploy.Proofs.HistoryRecords

/-!
# Reading the history back

What is read of deployments and of their failed attempts is a function of the changes that were
made, and no table is needed to say which.  The deployments of a project are those that were
started, the last one first (`Store.started`); of each attempt number of a deployment the last
record counts (`Store.recorded`); and the number of attempts of a deployment is the greatest one
told since its last completion (`Store.AttemptNumbers`).  A store of a file that is closed and
opened again reads the same (`Store.readBack_of_taken`).
-/

namespace PreviewDeploy

namespace Store

variable {s t : Store} {c : Change} {h : List Change} {rs : List DeploymentRecord}
  {r : DeploymentRecord} {id : DeploymentId} {project : String}

namespace Change

/-- The deployment of a project that a change starts. -/
def started? (project : String) : Change → Option DeploymentId
  | start id p .. => if p = project then some id else none
  | recordAttempt .. | complete .. | markTimedOut .. | markSuperseded .. | reopen => none

/-- The failed attempt of a deployment that a change records. -/
def recorded? (id : DeploymentId) : Change → Option AttemptRecord
  | recordAttempt id' a _ => if id' = id then some a else none
  | start .. | complete .. | markTimedOut .. | markSuperseded .. | reopen => none

/-- The number of attempts that the completion of a deployment tells. -/
def completed? (id : DeploymentId) : Change → Option UInt32
  | complete id' attempts .. => if id' = id then some attempts else none
  | start .. | recordAttempt .. | markTimedOut .. | markSuperseded .. | reopen => none

theorem recorded?_of_other (hc : c.about? ≠ some id) : c.recorded? id = none := by
  cases c with
  | recordAttempt id' a now => exact if_neg fun hid => hc (congrArg some hid)
  | _ => rfl

theorem completed?_of_other (hc : c.about? ≠ some id) : c.completed? id = none := by
  cases c with
  | complete id' attempts inst now => exact if_neg fun hid => hc (congrArg some hid)
  | _ => rfl

end Change

/-- The deployments of a project that changes started, the last one first. -/
def started (project : String) (h : List Change) : List DeploymentId :=
  h.filterMap (·.started? project)

/-- The failed attempts of a deployment that changes recorded, the last one first. -/
def recorded (id : DeploymentId) (h : List Change) : List AttemptRecord :=
  h.filterMap (·.recorded? id)

theorem started_cons :
    started project (c :: h) = (c.started? project).toList ++ started project h := by
  rw [started, List.filterMap_cons]
  cases c.started? project <;> rfl

theorem recorded_cons : recorded id (c :: h) = (c.recorded? id).toList ++ recorded id h := by
  rw [recorded, List.filterMap_cons]
  cases c.recorded? id <;> rfl

/-- The changes since the last completion of a deployment. -/
def sinceCompletion (id : DeploymentId) (h : List Change) : List Change :=
  h.takeWhile fun c => (c.completed? id).isNone

/-- The numbers of attempts that are told of a deployment: by its last completion, if there is
one, and by the failed attempts since then. -/
def AttemptNumbers (id : DeploymentId) (h : List Change) : Set UInt32 :=
  {n | n = (h.findSome? (·.completed? id)).getD 0 ∨
    ∃ a ∈ recorded id (sinceCompletion id h), a.attempt = n}

theorem mem_attemptNumbers {n : UInt32} : n ∈ AttemptNumbers id h ↔
    n = (h.findSome? (·.completed? id)).getD 0 ∨
      ∃ a ∈ recorded id (sinceCompletion id h), a.attempt = n := Iff.rfl

/-! ### Deployments -/

theorem mapM_map_of_ok {ε α β γ : Type} {f : β → Except ε γ} {g : α → β} {k : α → γ} {l : List α}
    (hl : ∀ x ∈ l, f (g x) = .ok (k x)) : (l.map g).mapM f = .ok (l.map k) := by
  induction l with
  | nil => rfl
  | cons x l ih =>
      have hx : f (g x) = .ok (k x) := hl x (List.mem_cons_self ..)
      have hrest := ih fun y hy => hl y (List.mem_cons_of_mem _ hy)
      rw [List.map_cons, List.mapM_cons, hx, ok_bind, hrest]
      rfl

/-- The records of a project's deployments are read, the last one started first. -/
theorem deployments_eq (ht : t.tables.deployments = rs.map .ofRecord) (limit : UInt32) :
    t.deployments project limit =
      .ok ((rs.reverse.filter (·.project = project)).take limit.toNat) := by
  have hproject : (fun row : DeploymentRow => decide (row.project = .text project)) ∘
      DeploymentRow.ofRecord = fun r => decide (r.project = project) := by
    funext r
    simp [DeploymentRow.ofRecord]
  rw [deployments, ht, ← List.map_reverse, List.filter_map, hproject, ← List.map_take,
    mapM_map_of_ok fun r _ => DeploymentRow.toRecord_ofRecord r, List.map_id']

/-- A change keeps the deployments of a project, in their order. -/
theorem Change.ids_filter_revise : ((c.revise rs).filter (·.project = project)).map (·.id) =
    (rs.filter (·.project = project)).map (·.id) ++
      ((c.newcomers rs).filter (·.project = project)).map (·.id) := by
  have hproject (r : DeploymentRecord) :
      decide ((c.amend r).project = project) = decide (r.project = project) := by
    rw [project_amend]
  rw [revise, List.filter_append, List.map_append, List.filter_map, comp_amend hproject,
    List.map_map, comp_amend fun _ => id_amend]

theorem nodup_ids : ((records h).map (·.id)).Nodup := by
  induction h with
  | nil => exact List.nodup_nil
  | cons c h ih =>
      rw [records, Change.ids_revise]
      cases c with
      | start id project session fileCount now =>
          rw [Change.newcomers]
          split
          · simpa using ih
          · rename_i hany
            have hnew : id ∉ (records h).map (·.id) := by simpa using hany
            exact ih.append (List.nodup_singleton _) (List.disjoint_singleton.mpr hnew)
      | recordAttempt => simpa [Change.newcomers] using ih
      | complete => simpa [Change.newcomers] using ih
      | markTimedOut => simpa [Change.newcomers] using ih
      | markSuperseded => simpa [Change.newcomers] using ih
      | reopen => simpa [Change.newcomers] using ih

theorem find?_of_mem (hr : r ∈ records h) : (records h).find? (·.id = r.id) = some r := by
  have hsome : ((records h).find? (·.id = r.id)).isSome := by
    rw [List.find?_isSome]
    exact ⟨r, hr, decide_eq_true rfl⟩
  obtain ⟨r', hfind⟩ := Option.isSome_iff_exists.mp hsome
  have hid : r'.id = r.id := by simpa using List.find?_some hfind
  have hmem : r' ∈ records h := List.mem_of_find?_eq_some hfind
  rw [hfind, List.inj_on_of_nodup_map nodup_ids hmem hr hid]

namespace Taken

theorem deployments (ht : Taken s h t) (hs : s.tables.deployments = [])
    (files : ∀ c ∈ h, c.fileCount < 2 ^ 32) : t.tables.deployments = (records h).map .ofRecord := by
  rw [ht.eq_afterAll]
  exact deployments_afterAll hs files

/-- A store that was reached by changes that were taken knows the deployments that have started. -/
theorem knows_iff (ht : Taken s h t) (hs : s.tables.deployments = [])
    (files : ∀ c ∈ h, c.fileCount < 2 ^ 32) : t.Knows id ↔ ∃ c ∈ h, c.Starts id := by
  rw [Store.knows_iff (ht.deployments hs files), mem_records]

/-- The records of a project are those of the deployments that were started. -/
theorem ids_records (ht : Taken s h t) (hs : s.tables.deployments = [])
    (files : ∀ c ∈ h, c.fileCount < 2 ^ 32) :
    ((records h).reverse.filter (·.project = project)).map (·.id) = started project h := by
  rw [List.filter_reverse, List.map_reverse]
  induction ht with
  | nil => rfl
  | @cons c h t u ht hp ih =>
      have hfiles : ∀ c ∈ h, c.fileCount < 2 ^ 32 := fun c hc => files c (List.mem_cons_of_mem _ hc)
      rw [records, Change.ids_filter_revise, List.reverse_append, ih hfiles, started_cons]
      cases alters_of_perform hp with
      | @start id p session fileCount now unknown =>
          have hnew : ¬ (records h).any (·.id = id) = true := by
            simpa [Store.knows_iff (ht.deployments hs hfiles)] using unknown
          rw [Change.newcomers, if_neg hnew, Change.started?]
          by_cases hproject : p = project
          · simp [DeploymentRecord.ofStart, hproject]
          · simp [DeploymentRecord.ofStart, hproject]
      | recordAttempt => rfl
      | complete => rfl
      | markTimedOut => rfl
      | markSuperseded => rfl
      | reopen => rfl

end Taken

/-! ### Numbers of attempts -/

theorem attempts_ended {status : DeploymentStatus} {error : String} {now : Timestamp} :
    (r.ended status error now).attempts = r.attempts := by
  unfold DeploymentRecord.ended
  split
  · rfl
  · rfl

theorem Taken.untold_of_unknown (ht : Taken s h t) (hs : s.tables.deployments = [])
    (files : ∀ c ∈ h, c.fileCount < 2 ^ 32) (hid : ¬ ∃ c ∈ h, c.Starts id) :
    ∀ c ∈ h, c.completed? id = none ∧ c.recorded? id = none := by
  induction ht with
  | nil =>
      intro c hc
      cases hc
  | @cons c h t u ht hp ih =>
      have hfiles : ∀ c ∈ h, c.fileCount < 2 ^ 32 := fun c hc => files c (List.mem_cons_of_mem _ hc)
      have hbefore : ¬ ∃ c ∈ h, c.Starts id := by
        rintro ⟨d, hd, hstarts⟩
        exact hid ⟨d, List.mem_cons_of_mem _ hd, hstarts⟩
      have hunknown : ¬ t.Knows id := by
        rw [ht.knows_iff hs hfiles]
        exact hbefore
      intro d hd
      rcases List.mem_cons.mp hd with rfl | hd
      · cases alters_of_perform hp with
        | start => exact ⟨rfl, rfl⟩
        | recordAttempt known =>
            refine ⟨rfl, if_neg ?_⟩
            rintro rfl
            exact hunknown known
        | complete known =>
            refine ⟨if_neg ?_, rfl⟩
            rintro rfl
            exact hunknown known
        | markTimedOut => exact ⟨rfl, rfl⟩
        | markSuperseded => exact ⟨rfl, rfl⟩
        | reopen => exact ⟨rfl, rfl⟩
      · exact ih hfiles hbefore d hd

theorem attemptNumbers_cons_of_completed {n : UInt32} (hc : c.completed? id = some n) :
    AttemptNumbers id (c :: h) = {n} := by
  ext m
  simp [AttemptNumbers, sinceCompletion, recorded, hc]

theorem attemptNumbers_cons_of_recorded {a : AttemptRecord} (hc : c.completed? id = none)
    (ha : c.recorded? id = some a) :
    AttemptNumbers id (c :: h) = insert a.attempt (AttemptNumbers id h) := by
  have hsince : sinceCompletion id (c :: h) = c :: sinceCompletion id h :=
    List.takeWhile_cons_of_pos (by rw [hc, Option.isNone_none])
  have hlast : (c :: h).findSome? (·.completed? id) = h.findSome? (·.completed? id) := by
    rw [List.findSome?_cons, hc]
  ext m
  rw [mem_attemptNumbers, Set.mem_insert_iff, mem_attemptNumbers, hsince, hlast, recorded_cons, ha,
    Option.toList_some, List.singleton_append]
  simp only [List.mem_cons, or_and_right, exists_or, exists_eq_left, eq_comm (a := m)]
  exact or_left_comm

theorem attemptNumbers_cons_of_other (hc : c.completed? id = none) (ha : c.recorded? id = none) :
    AttemptNumbers id (c :: h) = AttemptNumbers id h := by
  ext m
  simp [AttemptNumbers, sinceCompletion, recorded, hc, ha]

theorem attemptNumbers_of_untold (hh : ∀ c ∈ h, c.completed? id = none ∧ c.recorded? id = none) :
    AttemptNumbers id h = {0} := by
  induction h with
  | nil =>
      ext m
      simp [AttemptNumbers, sinceCompletion, recorded]
  | cons c h ih =>
      obtain ⟨hc, ha⟩ := hh c (List.mem_cons_self ..)
      rw [attemptNumbers_cons_of_other hc ha]
      exact ih fun d hd => hh d (List.mem_cons_of_mem _ hd)

theorem isGreatest_attempts_amend (hr : IsGreatest (AttemptNumbers id h) r.attempts)
    (hid : c.about? = some id) : IsGreatest (AttemptNumbers id (c :: h)) (c.amend r).attempts := by
  cases c with
  | recordAttempt id' a now =>
      obtain rfl := Option.some.inj hid
      have ha : (Change.recordAttempt id' a now).recorded? id' = some a := if_pos rfl
      rw [attemptNumbers_cons_of_recorded rfl ha]
      simp only [Change.amend, DeploymentRecord.attempted]
      by_cases hlt : r.attempts < a.attempt
      · rw [if_pos hlt]
        refine ⟨Set.mem_insert _ _, ?_⟩
        rintro n (rfl | hn)
        · exact UInt32.le_refl _
        · exact UInt32.le_trans (hr.2 hn) (UInt32.le_of_lt hlt)
      · rw [if_neg hlt]
        refine ⟨Set.mem_insert_of_mem _ hr.1, ?_⟩
        rintro n (rfl | hn)
        · exact UInt32.not_lt.mp hlt
        · exact hr.2 hn
  | complete id' attempts inst now =>
      obtain rfl := Option.some.inj hid
      have hn : (Change.complete id' attempts inst now).completed? id' = some attempts := if_pos rfl
      rw [attemptNumbers_cons_of_completed hn]
      refine ⟨rfl, ?_⟩
      rintro n rfl
      exact UInt32.le_refl _
  | start =>
      rw [attemptNumbers_cons_of_other rfl rfl]
      exact hr
  | markTimedOut =>
      rw [attemptNumbers_cons_of_other rfl rfl, Change.amend, attempts_ended]
      exact hr
  | markSuperseded =>
      rw [attemptNumbers_cons_of_other rfl rfl, Change.amend, attempts_ended]
      exact hr
  | reopen => cases hid

/-- The number of attempts in a record is the greatest one that is told of the deployment. -/
theorem Taken.isGreatest_attempts (ht : Taken s h t) (hs : s.tables.deployments = [])
    (files : ∀ c ∈ h, c.fileCount < 2 ^ 32) :
    ∀ r, (records h).find? (·.id = id) = some r → IsGreatest (AttemptNumbers id h) r.attempts := by
  induction ht with
  | nil =>
      intro r hr
      cases hr
  | @cons c h t u ht hp ih =>
      have hfiles : ∀ c ∈ h, c.fileCount < 2 ^ 32 := fun c hc => files c (List.mem_cons_of_mem _ hc)
      intro r hr
      cases hold : (records h).find? (·.id = id) with
      | some r' =>
          rw [records, Change.find?_revise_of_known hold] at hr
          obtain rfl := Option.some.inj hr
          have hbefore := ih hfiles r' hold
          split
          · rename_i hid
            exact isGreatest_attempts_amend hbefore hid
          · rename_i hid
            rw [attemptNumbers_cons_of_other (Change.completed?_of_other hid)
              (Change.recorded?_of_other hid)]
            exact hbefore
      | none =>
          -- only its start makes a record of a deployment that has none
          have hnone : ¬ ∃ c ∈ h, c.Starts id := by
            rw [← mem_records]
            simpa using hold
          have huntold := ht.untold_of_unknown hs hfiles hnone
          have hstarts : c.Starts id := by
            have hmem : ∃ r ∈ c.revise (records h), r.id = id :=
              ⟨r, List.mem_of_find?_eq_some hr, by simpa using List.find?_some hr⟩
            rcases Change.mem_revise.mp hmem with hknown | hstarts
            · exact absurd (mem_records.mp hknown) hnone
            · exact hstarts
          obtain ⟨project, session, fileCount, now, rfl⟩ := hstarts
          have hunknown : ∀ r ∈ records h, r.id ≠ id := by simpa using hold
          rw [records, Change.find?_revise_of_starts hunknown] at hr
          obtain rfl := Option.some.inj hr
          rw [attemptNumbers_cons_of_other rfl rfl, attemptNumbers_of_untold huntold]
          refine ⟨rfl, ?_⟩
          rintro n rfl
          exact UInt32.le_refl _

/-! ### Failed attempts -/

theorem AttemptEntry.not_isAttempt {e : AttemptEntry} {n : UInt32} :
    (!e.isAttempt id n) = true ↔ ¬ (e.deployment = id ∧ e.record.attempt = n) := by
  rw [Bool.not_eq_true', ← Bool.not_eq_true]
  simp [isAttempt]

theorem mem_of_mem_entries {e : AttemptEntry} (he : e ∈ entries h) :
    .recordAttempt e.deployment e.record e.storedAt ∈ h := by
  induction h with
  | nil => cases he
  | cons c h ih =>
      rw [entries] at he
      cases c with
      | recordAttempt id a now =>
          rcases List.mem_append.mp he with hold | hnew
          · exact List.mem_cons_of_mem _ (ih (List.mem_of_mem_filter hold))
          · obtain rfl := List.mem_singleton.mp hnew
            exact List.mem_cons_self ..
      | _ => exact List.mem_cons_of_mem _ (ih he)

theorem pairwise_entries : (entries h).Pairwise fun e e' =>
    ¬ (e.deployment = e'.deployment ∧ e.record.attempt = e'.record.attempt) := by
  induction h with
  | nil => exact List.Pairwise.nil
  | cons c h ih =>
      rw [entries]
      cases c with
      | recordAttempt id a now =>
          refine List.pairwise_append.mpr ⟨ih.filter _, List.pairwise_singleton .., ?_⟩
          intro e he e' he'
          obtain rfl := List.mem_singleton.mp he'
          exact AttemptEntry.not_isAttempt.mp (List.mem_filter.mp he).2
      | _ => exact ih

theorem nodup_numbers :
    (((entries h).filter (·.deployment = id)).map (·.record.attempt)).Nodup := by
  rw [List.Nodup, List.pairwise_map, List.pairwise_filter]
  apply pairwise_entries.imp
  intro e e' hne he he' hnumber
  have hid : e.deployment = e'.deployment :=
    (of_decide_eq_true he).trans (of_decide_eq_true he').symm
  exact hne ⟨hid, hnumber⟩

/-- The failed attempts that are entered of a deployment: for each number the last one recorded. -/
theorem mem_entries {a : AttemptRecord} : (∃ e ∈ entries h, e.deployment = id ∧ e.record = a) ↔
    (recorded id h).find? (·.attempt = a.attempt) = some a := by
  induction h with
  | nil => simp [entries, recorded]
  | cons c h ih =>
      rw [entries, recorded_cons]
      cases c with
      | recordAttempt id' a' now =>
          have hold : (∃ e ∈ (entries h).filter (!·.isAttempt id' a'.attempt),
              e.deployment = id ∧ e.record = a) ↔
              (∃ e ∈ entries h, e.deployment = id ∧ e.record = a) ∧
                ¬ (id' = id ∧ a'.attempt = a.attempt) := by
            constructor
            · rintro ⟨e, he, rfl, rfl⟩
              obtain ⟨hmem, hother⟩ := List.mem_filter.mp he
              refine ⟨⟨e, hmem, rfl, rfl⟩, ?_⟩
              rintro ⟨hid, hnumber⟩
              exact AttemptEntry.not_isAttempt.mp hother ⟨hid.symm, hnumber.symm⟩
            · rintro ⟨⟨e, hmem, rfl, rfl⟩, hother⟩
              refine ⟨e, List.mem_filter.mpr ⟨hmem, AttemptEntry.not_isAttempt.mpr ?_⟩, rfl, rfl⟩
              rintro ⟨hid, hnumber⟩
              exact hother ⟨hid.symm, hnumber.symm⟩
          have hnew : (∃ e ∈ [(⟨id', a', now⟩ : AttemptEntry)], e.deployment = id ∧ e.record = a) ↔
              id' = id ∧ a' = a := by
            simp
          rw [Change.enter]
          simp only [List.mem_append, or_and_right, exists_or]
          rw [hold, hnew, ih, Change.recorded?]
          by_cases hid : id' = id
          · by_cases hnumber : a'.attempt = a.attempt
            · simp [hid, hnumber]
            · have hne : a' ≠ a := fun ha => hnumber (congrArg _ ha)
              simp [hid, hnumber, hne]
          · simp [hid]
      | _ => exact ih

namespace AttemptEntry

/-- The number of an attempt is at most that of another one. -/
def numberLe (e e' : AttemptEntry) : Bool := e.record.attempt ≤ e'.record.attempt

theorem numberLe_eq (e e' : AttemptEntry) : e.numberLe e' = !e'.row.attempt.lt e.row.attempt := by
  have hlt : e'.row.attempt.lt e.row.attempt = decide (e'.record.attempt < e.record.attempt) := by
    simp [row, AttemptRow.ofRecord, Cell.ofNat, Cell.lt, UInt32.lt_iff_toNat_lt]
  rw [hlt, numberLe, ← decide_not, decide_eq_decide, UInt32.not_lt]

theorem pairwise_mergeSort {es : List AttemptEntry} (hes : (es.map (·.record.attempt)).Nodup) :
    ((es.mergeSort numberLe).map (·.record.attempt)).Pairwise (· < ·) := by
  have htrans (a b c : AttemptEntry) (hab : a.numberLe b) (hbc : b.numberLe c) : a.numberLe c :=
    decide_eq_true (UInt32.le_trans (of_decide_eq_true hab) (of_decide_eq_true hbc))
  have htotal (a b : AttemptEntry) : a.numberLe b || b.numberLe a := by
    simpa [numberLe] using UInt32.le_total a.record.attempt b.record.attempt
  have hsorted := List.pairwise_mergeSort htrans htotal es
  have hnodup : ((es.mergeSort numberLe).map (·.record.attempt)).Nodup :=
    ((List.mergeSort_perm es numberLe).map _).nodup_iff.mpr hes
  rw [List.Nodup, List.pairwise_map] at hnodup
  rw [List.pairwise_map]
  apply (hsorted.and hnodup).imp
  rintro a b ⟨hle, hne⟩
  exact UInt32.lt_of_le_of_ne (of_decide_eq_true hle) hne

end AttemptEntry

/-- The failed attempts of a deployment are read in the order of their numbers. -/
theorem Taken.attempts_eq (ht : Taken s h t) (hs : s.tables.attempts = [])
    (delays : ∀ c ∈ h, c.retryInMs < 2 ^ 63) :
    t.attempts id = .ok ((((entries h).filter (·.deployment = id)).mergeSort
      AttemptEntry.numberLe).map (·.record)) := by
  have hof : (fun row : AttemptRow => row.isOf id) ∘ AttemptEntry.row =
      fun e => decide (e.deployment = id) := by
    funext e
    simp
  rw [Store.attempts, ht.attempts hs, List.filter_map, hof,
    ← List.map_mergeSort fun e _ e' _ => AttemptEntry.numberLe_eq e e']
  apply mapM_map_of_ok
  intro e he
  have hmem : e ∈ entries h := List.mem_of_mem_filter (List.mem_mergeSort.mp he)
  exact AttemptRow.toRecord_ofRecord e.deployment (delays _ (mem_of_mem_entries hmem))

/-- What is read after changes, the last one first. -/
structure ReadBack (h : List Change) (t : Store) : Prop where
  /-- The deployments of a project are read as the last ones started, each once and as it is read
  on its own. -/
  deployments : ∀ (project : String) (limit : UInt32), (started project h).Nodup ∧
    ∃ rs, t.deployments project limit = .ok rs ∧
      rs.map (·.id) = (started project h).take limit.toNat ∧
      ∀ r ∈ rs, r.project = project ∧ t.deployment r.id = .ok r
  /-- The failed attempts of a deployment are read by their numbers, of each number the last one
  recorded. -/
  attempts : ∀ id : DeploymentId, ∃ as, t.attempts id = .ok as ∧
    as.Pairwise (·.attempt < ·.attempt) ∧
    ∀ a, a ∈ as ↔ (recorded id h).find? (·.attempt = a.attempt) = some a
  /-- The number of attempts of a deployment that has started is the greatest one told since its
  last completion. -/
  count : ∀ id : DeploymentId, (∃ c ∈ h, c.Starts id) →
    ∃ r, t.deployment id = .ok r ∧ IsGreatest (AttemptNumbers id h) r.attempts

/-- Whatever changes are taken, in any order, they can be read back. -/
theorem readBack_of_taken (hd : s.tables.deployments = []) (ha : s.tables.attempts = [])
    (files : ∀ c ∈ h, c.fileCount < 2 ^ 32) (delays : ∀ c ∈ h, c.retryInMs < 2 ^ 63)
    (ht : Taken s h t) : ReadBack h t := by
  have hrows := ht.deployments hd files
  constructor
  case deployments =>
    intro project limit
    have hids : ((records h).reverse.filter (·.project = project)).map (·.id) =
        started project h := ht.ids_records hd files
    constructor
    · rw [← hids]
      have hreverse : ((records h).reverse.map (·.id)).Nodup := by
        rw [List.map_reverse]
        exact List.nodup_reverse.mpr nodup_ids
      exact hreverse.sublist (List.filter_sublist.map _)
    · refine ⟨_, deployments_eq hrows limit, ?_, ?_⟩
      · rw [List.map_take, hids]
      · intro r hr
        have hfilter := List.mem_of_mem_take hr
        obtain ⟨hmem, hproject⟩ := List.mem_filter.mp hfilter
        refine ⟨of_decide_eq_true hproject, deployment_of_find? hrows ?_⟩
        exact find?_of_mem (List.mem_reverse.mp hmem)
  case attempts =>
    intro id
    refine ⟨_, ht.attempts_eq ha delays, ?_, ?_⟩
    · have hnodup : (((entries h).filter (·.deployment = id)).map (·.record.attempt)).Nodup :=
        nodup_numbers
      have hsorted := AttemptEntry.pairwise_mergeSort hnodup
      rw [List.pairwise_map] at hsorted ⊢
      exact hsorted
    · intro a
      rw [← mem_entries, List.mem_map]
      simp only [List.mem_mergeSort, List.mem_filter, decide_eq_true_eq, and_assoc]
  case count =>
    intro id hid
    have hknown : ((records h).find? (·.id = id)).isSome := by
      rw [List.find?_isSome]
      simpa using mem_records.mpr hid
    obtain ⟨r, hr⟩ := Option.isSome_iff_exists.mp hknown
    exact ⟨r, deployment_of_find? hrows hr, ht.isGreatest_attempts hd files r hr⟩

/-- Two deployments of a project: one fails three times, twice at its first attempt, and completes
after the store was opened again; the other one fails once more after that. -/
def repeatedAttempts : List Change :=
  [.recordAttempt ⟨"dep-2"⟩ ⟨1, ⟨"sess-1"⟩, "no answer", "timeout", 500, false⟩ default,
    .complete ⟨"dep-1"⟩ 3 ⟨⟨"run-1"⟩, some "https://run-1.example", none⟩ default,
    .reopen,
    .recordAttempt ⟨"dep-1"⟩ ⟨1, ⟨"sess-2"⟩, "gone", "unreachable", 250, true⟩ default,
    .start ⟨"dep-2"⟩ "shop" ⟨"sess-1"⟩ 4 default,
    .recordAttempt ⟨"dep-1"⟩ ⟨2, ⟨"sess-1"⟩, "no answer", "timeout", 500, false⟩ default,
    .recordAttempt ⟨"dep-1"⟩ ⟨1, ⟨"sess-1"⟩, "no answer", "timeout", 250, false⟩ default,
    .start ⟨"dep-1"⟩ "shop" ⟨"sess-1"⟩ 3 default]

/-- The newer of the two deployments is read with its one failed attempt, the other one with what
its completion told. -/
theorem readBack_of_taken_of_repeatedAttempts :
    ReadBack repeatedAttempts (({} : Store).afterAll repeatedAttempts) ∧
      ((({} : Store).afterAll repeatedAttempts).deployments "shop" 10).map
        (·.map fun r => (r.id.text, r.attempts)) = .ok [("dep-2", 1), ("dep-1", 3)] ∧
      (recorded ⟨"dep-1"⟩ repeatedAttempts).map (·.error) = ["gone", "no answer", "no answer"] :=
  ⟨readBack_of_taken (s := {}) rfl rfl (by decide) (by decide)
    (taken_of_performAll (by decide +kernel)), by decide +kernel, by decide +kernel⟩

end Store

end PreviewDeploy
